import GstWebrtc.Multiparty.MemberPairs

/-!
# Every offer is answered

The processes of a room in runs in which nobody joins under a uid that a present
client was listed: the newer client of each pair offers, the other answers, and
neither says anything else.  A uid that comes back breaks it.
-/

namespace GstWebrtc.Multiparty.RoomClient

open GstWebrtc.Base GstWebrtc.Base.PyText GstWebrtc.Signalling

/-! ## `HELLO` is the first text on a connection -/

section Greeting

variable {w w' : World} {act : Act} {t : Turn} {k : ConnId}

/-- A handler without a uid sends nothing but the `HELLO` for one. -/
theorem Fires.greeting (fires : Fires w act t) (unnamed : (w.phase act.conn).uid? = none) :
    (∃ u, t = .send w.server act.conn .hello (.ack u)) ∨
      (t.phase.uid? = none ∧ ∀ srv target reply phase, t ≠ .send srv target reply phase) := by
  have busy : ∀ {phase : Phase} {u}, w.phase act.conn = phase → phase.uid? = some u → False := by
    intro phase u waiting named
    rw [waiting, named] at unnamed
    cases unnamed
  have loops : ∀ {u roomId body}, Runs w u roomId act body → False := by
    intro u roomId body runs
    obtain ⟨point, waiting⟩ := runs.running
    exact busy waiting rfl
  cases fires with
  | greeted waiting fields absent word => exact Or.inl ⟨_, rfl⟩
  | refused waiting => exact Or.inr ⟨rfl, by simp⟩
  | helloFailed waiting => exact Or.inr ⟨rfl, by simp⟩
  | helloClosed unusable waiting => exact Or.inr ⟨rfl, by simp⟩
  | rejected waiting => exact Or.inr ⟨rfl, by simp⟩
  | ackFailed mayRaise waiting => exact (busy waiting rfl).elim
  | registered mayReturn waiting => exact (busy waiting rfl).elim
  | timeout waiting => exact (busy waiting rfl).elim
  | loops runs => exact (loops runs).elim
  | sends runs => exact (loops runs).elim
  | leaves runs removed => exact (loops runs).elim
  | partnerClosed mayReturn waiting removed => exact (busy waiting rfl).elim
  | leftSent mayReturn waiting announced => exact (busy waiting rfl).elim
  | leaveRaised mayRaise waiting => exact (busy waiting rfl).elim
  | finished waiting => exact (busy waiting rfl).elim

/-- Each connection was sent `HELLO` first, or nothing. -/
def Greeted (w : World) : Prop :=
  ∀ k, (w.mailTo k).head? = some .hello ∨ (w.mailTo k = [] ∧ (w.phase k).uid? = none)

theorem Greeted.init : Greeted World.empty := fun _ => Or.inr ⟨rfl, rfl⟩

theorem Greeted.step (inv : Greeted w) (orderly : OrderlyRooms w) (h : w.step act = some w') :
    Greeted w' := by
  intro k
  rcases inv k with first | ⟨nothing, unnamed⟩
  · obtain ⟨more, grown⟩ := World.mailTo_step h k
    rw [grown, List.head?_append, first]
    exact Or.inl rfl
  · rcases step_cases h with ⟨j, rfl, absent, rfl⟩ | ⟨j, rfl, usable, rfl⟩ | ⟨t, fires, rfl⟩
    · refine Or.inr ⟨nothing, ?_⟩
      rw [World.phase_setConn]
      split
      · rfl
      · exact unnamed
    · refine Or.inr ⟨nothing, ?_⟩
      rw [World.phase_lose]
      exact unnamed
    · by_cases self : k = act.conn
      · subst self
        rcases Fires.greeting fires unnamed with ⟨u, rfl⟩ | ⟨same, silent⟩
        · have talks : (w.phase act.conn).Talks := by
            rcases fires.target with ⟨-, talks⟩ | ⟨v, peer, found, own⟩
            · exact talks
            · have past := (orderly.mail.rooms.owner v peer found).1
              rw [own] at past
              cases (Phase.uid_of_past past).symm.trans unnamed
          have opened := orderly.views.tables.usable act.conn talks
          refine Or.inl ?_
          rw [World.mailTo_of_log (w.apply_log act.conn _), World.delivered, if_neg opened, nothing]
          simp
        · refine Or.inr ⟨?_, ?_⟩
          · rcases World.mailTo_apply w act.conn act.conn t with kept | ⟨srv, reply, phase, rfl, -⟩
            · rw [kept, nothing]
            · exact absurd rfl (silent srv _ reply phase)
          · rw [World.apply_phase_self, same]
      · refine Or.inr ⟨?_, ?_⟩
        · rcases World.mailTo_apply w act.conn k t with kept | ⟨srv, reply, phase, rfl, -⟩
          · rw [kept, nothing]
          · -- only a registered client is sent anything by another handler
            rcases fires.target with ⟨own, -⟩ | ⟨v, peer, found, own⟩
            · exact absurd own self
            · have past := (orderly.mail.rooms.owner v peer found).1
              rw [own] at past
              cases (Phase.uid_of_past past).symm.trans unnamed
        · rw [World.apply_phase_of_ne _ _ _ self, unnamed]

end Greeting

/-! ## What a process does with its mail -/

/-- A reply that a process has taken, with what it had to send for it. -/
inductive Proper (setup : Setup) : Reply × List Text → Prop where
  | hello : Proper setup (.hello, ["ROOM ".toList ++ setup.roomId])
  | listed {room peers} (nodup : peers.Nodup) :
      Proper setup (.roomOk room peers, peers.map getOfferSdp)
  | offer {uid} : Proper setup (.peerMsg uid initialSdp, [getAnswerSdp initialSdp uid])
  | answer {uid} : Proper setup (.peerMsg uid replySdp, [])
  | plain {reply} (notListed : ∀ room peers, reply ≠ .roomOk room peers)
      (notMessage : ∀ uid payload, reply ≠ .peerMsg uid payload) : Proper setup (reply, [])

/-- The replies that a process has taken. -/
def Party.read (s : Party) (k : ConnId) : List Reply := (s.history k).map Prod.fst

structure Fluent (setup : Setup) (s : Party) : Prop where
  paired : Paired setup s.world
  greeted : Greeted s.world
  letters : ∀ k, ∀ text ∈ s.outbox k, Letter setup s.world k text
  read : ∀ k, s.read k <+: s.world.mailTo k
  greeting : ∀ k, s.stage k = .greeting → s.history k = []
  offers : ∀ k sentOffers, s.stage k = .loop sentOffers →
    sentOffers = (Notice.lastRoster (Reply.notices (s.read k))).toFinset
  proper : ∀ k, ∀ entry ∈ s.history k, Proper setup entry

/-- Each message and each disconnect is handled to completion. -/
def InOrder (s : Party) : Move → Prop
  | .server act => Sequential s.world act
  | .take _ => True

/-- And nobody asks for the room under a uid that a present client was listed. -/
def InOrderFresh (setup : Setup) (s : Party) (move : Move) : Prop :=
  InOrder s move ∧ ∀ act, move = .server act → Fresh setup s.world act

namespace Fluent

variable {setup : Setup} {s s' : Party} {move : Move} {act : Act} {k : ConnId}

theorem init (setup : Setup) : Fluent setup Party.empty where
  paired := .init setup
  greeted := .init
  letters k text inside := absurd inside List.not_mem_nil
  read k := List.nil_prefix
  greeting k started := rfl
  offers := by rintro k sentOffers ⟨⟩
  proper k entry inside := absurd inside List.not_mem_nil

theorem spoken (inv : Fluent setup s) (sequential : Sequential s.world act)
    (served : Party.Served setup s s' act) : Spoken setup s.world act :=
  ⟨sequential, fun k msg order pick acts =>
    inv.letters k msg (served.handed k msg order pick acts)⟩

/-- A letter stays one while the server goes on. -/
theorem Letter.kept {w w' : World} {text : Text} (letter : Letter setup w k text)
    (inv : Paired setup w) (spoken : Spoken setup w act) (h : w.step act = some w') :
    Letter setup w' k text := by
  cases letter with
  | hello => exact .hello
  | room => exact .room
  | offer listed =>
      obtain ⟨room, peers, told, inside⟩ := roomOk_of_listed listed
      have sent : SentRoomOk w k room := ⟨peers, World.mem_mailTo.mp told⟩
      exact .offer (by rwa [inv.listed_step spoken h sent])
  | @answer v offer r told named unlisted =>
      obtain ⟨room, sent⟩ := (inv.heard k).heard r told (Reply.ofRoom_of_names named)
      exact .answer (mail_kept h told) named (by rwa [inv.listed_step spoken h sent])

theorem serve (inv : Fluent setup s) (sequential : Sequential s.world act)
    (fresh : Fresh setup s.world act) (h : s.world.step act = some s'.world)
    (served : Party.Served setup s s' act) : Fluent setup s' := by
  have spoken := inv.spoken sequential served
  have read : ∀ k, s'.read k = s.read k := fun k => by rw [Party.read, served.history, Party.read]
  refine ⟨inv.paired.step spoken fresh h, inv.greeted.step (inv.paired.heard 0).orderly h,
    ?_, ?_, ?_, ?_, ?_⟩
  · intro k text inside
    rcases served.outbox k text inside with before | rfl
    · exact Letter.kept (inv.letters k text before) inv.paired spoken h
    · exact .hello
  · intro k
    obtain ⟨more, grown⟩ := World.mailTo_step h k
    rw [read, grown]
    exact (inv.read k).trans (List.prefix_append _ _)
  · intro k started
    rcases served.stage k with same | ended
    · rw [served.history]
      exact inv.greeting k (same ▸ started)
    · cases ended.symm.trans started
  · intro k sentOffers looping
    rcases served.stage k with same | ended
    · rw [read]
      exact inv.offers k sentOffers (same ▸ looping)
    · cases ended.symm.trans looping
  · rw [served.history]
    exact inv.proper

/-- What a process makes of the reply after those that it has taken. -/
structure Understood (setup : Setup) (w : World) (k : ConnId) (before : List Reply) (reply : Reply)
    (result : Stage × List Text) : Prop where
  proper : Proper setup (reply, result.2)
  letters : ∀ text ∈ result.2, Letter setup w k text
  offers : ∀ sentOffers, result.1 = .loop sentOffers →
    sentOffers = (Notice.lastRoster (Reply.notices (before ++ [reply]))).toFinset
  started : result.1 ≠ .greeting

theorem next (inv : Fluent setup s) {reply : Reply}
    (unread : (s.world.mailTo k)[(s.history k).length]? = some reply) :
    ∃ rest, s.world.mailTo k = s.read k ++ reply :: rest := by
  obtain ⟨tail, whole⟩ := inv.read k
  have length : (s.read k).length = (s.history k).length := List.length_map _
  rw [← whole, List.getElem?_append_right (by rw [length]), length, Nat.sub_self] at unread
  cases tail with
  | nil => cases unread
  | cons first rest =>
      cases unread
      exact ⟨rest, whole.symm⟩

theorem understood_hello (inv : Fluent setup s) {reply : Reply} (started : s.stage k = .greeting)
    {rest : List Reply} (whole : s.world.mailTo k = s.read k ++ reply :: rest) :
    Understood setup s.world k (s.read k) reply
      (receive setup .greeting (reply.text setup.repr)) := by
  have nothing : s.read k = [] := by rw [Party.read, inv.greeting k started, List.map_nil]
  rw [nothing] at whole ⊢
  have first : reply = .hello := by
    rcases inv.greeted k with first | ⟨empty, -⟩
    · rw [whole] at first
      exact Option.some.inj first
    · cases whole.symm.trans empty
  subst first
  refine ⟨.hello, ?_, ?_, ?_⟩
  · intro text inside
    cases List.mem_singleton.mp inside
    exact .room
  · rintro sentOffers ⟨⟩
    rfl
  · rintro ⟨⟩

/-- A message is an offer of somebody unlisted, or the answer to an offer that was sent. -/
theorem message_kind (inv : Fluent setup s) {sentOffers : Finset Text}
    (looping : s.stage k = .loop sentOffers) {uid payload : Text} {rest : List Reply}
    (whole : s.world.mailTo k = s.read k ++ .peerMsg uid payload :: rest) :
    (payload = initialSdp ∧ uid ∉ s.world.listed k ∧ uid ∉ sentOffers) ∨
      (payload = replySdp ∧ uid ∈ sentOffers) := by
  have all := (inv.paired.heard k).grown
  have told : .peerMsg uid payload ∈ s.world.mailTo k := by
    rw [whole]
    exact List.mem_append_right _ List.mem_cons_self
  rw [inv.offers k sentOffers looping, List.mem_toFinset]
  rcases inv.paired.messages k uid payload told with ⟨offer, unlisted⟩ | ⟨answer, listed⟩
  · refine Or.inl ⟨offer, unlisted, fun inside => unlisted ?_⟩
    obtain ⟨members, given, inside⟩ := Notice.roster_of_mem inside
    obtain ⟨r, taken, notice⟩ := List.mem_filterMap.mp given
    cases r with
    | roomOk room peers =>
        cases notice
        rw [listed_of_roomOk (inv.paired.heard k) ((inv.read k).subset taken)]
        exact inside
    | _ => cases notice
  · refine Or.inr ⟨answer, ?_⟩
    obtain ⟨room, peers, sent, inside⟩ := roomOk_of_listed listed
    have earlier : .roomOk room peers ∈ s.read k := by
      rw [whole] at sent all
      rcases List.mem_append.mp sent with before | after
      · exact before
      · -- a list that comes later would be the first notice, but the sender is known
        have known : uid ∈ Notice.view (Reply.notices (s.read k)) := all.fits
        obtain ⟨between, later, split⟩ := List.append_of_mem after
        rw [split, ← List.append_assoc] at all
        have alone := (all.fits _ rfl).1
        rw [Reply.notices_append, List.append_eq_nil_iff] at alone
        rw [alone.1] at known
        exact absurd known (Finset.notMem_empty uid)
    have grown : Grown Reply.Fits (s.read k) := by
      rw [whole] at all
      exact all.of_append
    rw [Notice.lastRoster_of_grown (Reply.notices_grown grown)
      (List.mem_filterMap.mpr ⟨_, earlier, rfl⟩)]
    exact inside

theorem understood_loop (inv : Fluent setup s) {reply : Reply} {sentOffers : Finset Text}
    (looping : s.stage k = .loop sentOffers) {rest : List Reply}
    (whole : s.world.mailTo k = s.read k ++ reply :: rest) :
    Understood setup s.world k (s.read k) reply
      (receive setup (.loop sentOffers) (reply.text setup.repr)) := by
  have heard := inv.paired.heard k
  have told : reply ∈ s.world.mailTo k := by
    rw [whole]
    exact List.mem_append_right _ List.mem_cons_self
  have fits : reply.Fits (s.read k) := by
    have grown := heard.grown
    rw [whole] at grown
    exact grown.fits
  have kind : ∀ uid payload, reply = .peerMsg uid payload →
      (payload = initialSdp ∧ uid ∉ s.world.listed k ∧ uid ∉ sentOffers) ∨
        (payload = replySdp ∧ uid ∈ sentOffers) := by
    rintro uid payload rfl
    exact inv.message_kind looping whole
  have head : ∀ uid payload, reply = .peerMsg uid payload →
      ∃ c rest, payload = c :: rest ∧ isSpace c = false := by
    intro uid payload same
    rcases kind uid payload same with ⟨rfl, -⟩ | ⟨rfl, -⟩
    · exact initialSdp_head
    · exact replySdp_head
  have offers := inv.offers k sentOffers looping
  -- only a list changes what was offered
  have kept : (∀ members, reply.notice ≠ some (.roster members)) →
      sentOffers = (Notice.lastRoster (Reply.notices (s.read k ++ [reply]))).toFinset := by
    intro noRoster
    rw [offers, Reply.notices_append, Notice.lastRoster, Notice.lastRoster, List.foldl_append]
    cases notice : reply.notice with
    | none => simp [Reply.notices, notice]
    | some n =>
        have now : Reply.notices [reply] = [n] := by simp [Reply.notices, notice]
        rw [now]
        cases n with
        | roster members => exact absurd notice (noRoster members)
        | joined member => rfl
        | left member => rfl
  have received : Received sentOffers reply
      (receive setup (.loop sentOffers) (reply.text setup.repr)) :=
    receive_received (heard.clean reply told) (heard.not_relay told) head
  generalize receive setup (.loop sentOffers) (reply.text setup.repr) = result at received
  cases received with
  | @listed room peers =>
      obtain ⟨nothing, nodup⟩ := fits _ rfl
      refine ⟨.listed nodup, ?_, ?_, by rintro ⟨⟩⟩
      · intro text inside
        obtain ⟨v, listed, rfl⟩ := List.mem_map.mp inside
        exact .offer (by rwa [listed_of_roomOk heard told])
      · rintro _ ⟨⟩
        rw [offers, nothing, Reply.notices_append, nothing]
        simp [Reply.notices, Reply.notice, Notice.lastRoster]
  | joined =>
      refine ⟨.plain (by simp) (by simp), by simp, ?_, by rintro ⟨⟩⟩
      rintro _ ⟨⟩
      exact kept (by simp [Reply.notice])
  | left =>
      refine ⟨.plain (by simp) (by simp), by simp, ?_, by rintro ⟨⟩⟩
      rintro _ ⟨⟩
      exact kept (by simp [Reply.notice])
  | @message uid payload =>
      have unchanged : ∀ sentOffers', Stage.loop sentOffers = .loop sentOffers' → sentOffers' =
          (Notice.lastRoster (Reply.notices (s.read k ++ [.peerMsg uid payload]))).toFinset := by
        rintro _ ⟨⟩
        exact kept (by simp [Reply.notice])
      rcases kind uid payload rfl with ⟨rfl, unlisted, unsent⟩ | ⟨rfl, listed⟩
      · rw [if_neg unsent]
        refine ⟨.offer, ?_, unchanged, by rintro ⟨⟩⟩
        intro text inside
        cases List.mem_singleton.mp inside
        exact .answer told List.mem_cons_self unlisted
      · rw [if_pos listed]
        exact ⟨.answer, by simp, unchanged, by rintro ⟨⟩⟩
  | stopped other =>
      refine ⟨.plain ?_ ?_, by simp, by rintro _ ⟨⟩, by rintro ⟨⟩⟩
      · rintro room peers rfl
        cases other
      · rintro uid payload rfl
        cases other

theorem take (inv : Fluent setup s) {reply : Reply} (alive : s.stage k ≠ .ended)
    (unread : (s.world.mailTo k)[(s.history k).length]? = some reply) :
    Fluent setup (s.taken setup k reply) := by
  obtain ⟨rest, whole⟩ := inv.next unread
  have understood : Understood setup s.world k (s.read k) reply
      (receive setup (s.stage k) (reply.text setup.repr)) := by
    cases stage : s.stage k with
    | greeting => exact inv.understood_hello stage whole
    | loop sentOffers => exact inv.understood_loop stage whole
    | ended => exact absurd stage alive
  have read : (s.taken setup k reply).read k = s.read k ++ [reply] := by
    simp [Party.read, Party.taken]
  have others : ∀ {c}, c ≠ k → (s.taken setup k reply).read c = s.read c := by
    intro c other
    simp [Party.read, Party.taken, other]
  refine ⟨inv.paired, inv.greeted, ?_, ?_, ?_, ?_, ?_⟩
  · intro c text inside
    by_cases self : c = k
    · subst self
      simp only [Party.taken, Function.update_self] at inside
      rcases List.mem_append.mp inside with before | now
      · exact inv.letters c text before
      · exact understood.letters text now
    · simp only [Party.taken, Function.update_of_ne self] at inside
      exact inv.letters c text inside
  · intro c
    by_cases self : c = k
    · subst self
      rw [read]
      exact ⟨rest, by rw [List.append_assoc]; exact whole.symm⟩
    · rw [others self]
      exact inv.read c
  · intro c started
    by_cases self : c = k
    · subst self
      simp only [Party.taken, Function.update_self] at started
      exact absurd started understood.started
    · simp only [Party.taken, Function.update_of_ne self] at started ⊢
      exact inv.greeting c started
  · intro c sentOffers looping
    by_cases self : c = k
    · subst self
      simp only [Party.taken, Function.update_self] at looping
      rw [read]
      exact understood.offers sentOffers looping
    · simp only [Party.taken, Function.update_of_ne self] at looping
      rw [others self]
      exact inv.offers c sentOffers looping
  · intro c entry inside
    by_cases self : c = k
    · subst self
      simp only [Party.taken, Function.update_self] at inside
      rcases List.mem_append.mp inside with before | now
      · exact inv.proper c entry before
      · cases List.mem_singleton.mp now
        exact understood.proper
    · simp only [Party.taken, Function.update_of_ne self] at inside
      exact inv.proper c entry inside

theorem step (inv : Fluent setup s) (allowed : InOrderFresh setup s move)
    (h : s.step setup move = some s') : Fluent setup s' := by
  rcases Party.step_cases h with ⟨act, rfl, fires, served⟩ | ⟨k, reply, rfl, alive, unread, rfl⟩
  · exact inv.serve allowed.1 (allowed.2 act rfl) fires served
  · exact inv.take alive unread

theorem of_reachable (run : (party setup).Reachable (InOrderFresh setup) s) : Fluent setup s :=
  run.invariant (init setup) fun _ _ _ inv allowed h => inv.step allowed h

end Fluent

/-! ## The exchange -/

/-- A message to another member is put on its connection. -/
theorem turn_of_message {w : World} {i j : ConnId} {u v : Uid} {room : RoomId} {msg word : Text}
    {payload : Text} (waiting : w.phase i = .running u (some room) .recv)
    (sender : w.server.peers u = some ⟨i, some room⟩) (valid : room ≠ [] ∧ room ≠ inSession)
    (command : "ROOM_PEER_MSG".toList <+: msg) (fields : splitMax 2 msg = [word, v, payload])
    (recipient : w.server.peers v = some ⟨j, some room⟩) (order : List Uid) (pick : Option Uid) :
    w.turn (.recv i msg order pick) =
      some (.send w.server j (.peerMsg u payload) (.running u (some room) .sent)) := by
  have handled : connectionHandler w.server i u (some room) order msg =
      some (.send w.server (some room) j (.peerMsg u payload) .sent) := by
    unfold connectionHandler roomCommand roomPeerMsg
    simp only [sender, valid.1, valid.2, ne_eq, not_false_eq_true, if_true, if_false]
    rw [if_pos (startsWith_iff.mpr command), fields]
    simp only [recipient, not_true_eq_false, if_false]
  simp only [World.turn, waiting, handled, Option.bind_some, Body.turn]

/-- The process at `k` is in its loop, and its handler has sent it a `ROOM_OK`. -/
structure Present (setup : Setup) (s : Party) (k : ConnId) : Prop where
  looping : ∃ sentOffers, s.stage k = .loop sentOffers
  running : ∃ roomId point, s.world.phase k = .running (setup.peerId k) roomId point
  answered : ∃ room, SentRoomOk s.world k room

/-- A text of one process for the uid of another, with its payload. -/
inductive Addressed (v : Uid) : Text → Text → Prop where
  | offer : Addressed v (getOfferSdp v) initialSdp
  | answer {offer} : Addressed v (getAnswerSdp offer v) replySdp

structure OffersAnswered (setup : Setup) (s : Party) : Prop where
  /-- A process that takes its `ROOM_OK` offers once to each that is listed. -/
  listed : ∀ k room peers sent, (.roomOk room peers, sent) ∈ s.history k →
    peers.Nodup ∧ sent = peers.map getOfferSdp
  /-- It makes no other offer. -/
  offers : ∀ k reply sent v, (reply, sent) ∈ s.history k → getOfferSdp v ∈ sent →
    ∃ room peers, reply = .roomOk room peers ∧ v ∈ peers
  /-- It is sent one `ROOM_OK`. -/
  once : ∀ k before room peers after, s.world.mailTo k = before ++ .roomOk room peers :: after →
    peers = s.world.listed k ∧ ∀ room' peers', .roomOk room' peers' ∉ before ++ after
  /-- Of two clients the one with the other in its list has come later. -/
  newer : ∀ i j, i ≠ j → Present setup s i → Present setup s j →
    Later s.world i (setup.peerId i) j (setup.peerId j) ∨
      Later s.world j (setup.peerId j) i (setup.peerId i)
  /-- What one client sends to another is put on its connection, once and nowhere else. -/
  relayed : ∀ i j text payload s' order pick, i ≠ j → Present setup s i → Present setup s j →
    Addressed (setup.peerId j) text payload →
    InOrder s (.server (.recv i text order pick)) →
    s.step setup (.server (.recv i text order pick)) = some s' →
    s'.world.log = s.world.log ++ [(j, .peerMsg (setup.peerId i) payload)]
  /-- An offer that a process takes is answered at once by one message to its sender. -/
  answered : ∀ k u sent, (.peerMsg u initialSdp, sent) ∈ s.history k →
    sent = [getAnswerSdp initialSdp u]
  /-- Nothing is sent for an answer. -/
  quiet : ∀ k u sent, (.peerMsg u replySdp, sent) ∈ s.history k → sent = []

/-! ## The texts of offers -/

theorem getOfferSdp_injective {u v : Uid} (h : getOfferSdp u = getOfferSdp v) : u = v := by
  rw [getOfferSdp_eq, getOfferSdp_eq] at h
  have tails := (List.cons.inj (List.append_cancel_left h)).2
  exact List.append_cancel_right tails

theorem getOfferSdp_ne_room (v : Uid) (setup : Setup) :
    getOfferSdp v ≠ "ROOM ".toList ++ setup.roomId := by
  intro same
  have fifth := congrArg (fun text => text[4]?) same
  rw [getOfferSdp_eq] at fifth
  exact absurd fifth (by simp)

/-- The end of a message is the end of its payload. -/
theorem messageText_end (v payload : Text) (long : 7 ≤ payload.length) :
    ("ROOM_PEER_MSG ".toList ++ v ++ ' ' :: payload).reverse.take 7 =
      payload.reverse.take 7 := by
  rw [List.append_cons, List.reverse_append,
    List.take_append_of_le_length (by rwa [List.length_reverse])]

theorem getOfferSdp_end (v : Text) :
    (getOfferSdp v).reverse.take 7 = initialSdp.reverse.take 7 :=
  messageText_end v initialSdp (by decide)

theorem getAnswerSdp_end (offer v : Text) :
    (getAnswerSdp offer v).reverse.take 7 = replySdp.reverse.take 7 :=
  messageText_end v replySdp (by decide)

theorem getOfferSdp_ne_answer (v offer u : Text) : getOfferSdp v ≠ getAnswerSdp offer u := by
  intro same
  have last : (getOfferSdp v).reverse.take 7 = (getAnswerSdp offer u).reverse.take 7 := by
    rw [same]
  rw [getOfferSdp_end, getAnswerSdp_end] at last
  exact absurd last (by decide)

section Exchange

variable {setup : Setup} {s : Party} {i j : ConnId}

theorem listed_once {w : World} {k : ConnId} (heard : Heard k w) {before after : List Reply}
    {room room' : RoomId} {peers peers' : List Uid}
    (whole : w.mailTo k = before ++ .roomOk room peers :: after) :
    .roomOk room' peers' ∉ before ++ after := by
  have grown := heard.grown
  rw [whole] at grown
  intro again
  rcases List.mem_append.mp again with earlier | later
  · have nothing : Reply.notices before = [] := (grown.fits _ rfl).1
    have told : Notice.roster peers' ∈ Reply.notices before :=
      List.mem_filterMap.mpr ⟨_, earlier, rfl⟩
    rw [nothing] at told
    cases told
  · obtain ⟨between, rest, split⟩ := List.append_of_mem later
    rw [split, ← List.cons_append, ← List.append_assoc] at grown
    have nothing := (grown.fits _ rfl).1
    have told : Notice.roster peers ∈
        Reply.notices (before ++ .roomOk room peers :: between) :=
      List.mem_filterMap.mpr ⟨.roomOk room peers, by simp, rfl⟩
    rw [nothing] at told
    cases told

/-- A client that is present is a member of the room, or is just about to be. -/
theorem Present.member (present : Present setup s i) (paired : Paired setup s.world) :
    (setup.peerId i ∈ s.world.server.members setup.roomId ∧
      s.world.server.peers (setup.peerId i) = some ⟨i, some setup.roomId⟩ ∧
      ∃ point, s.world.phase i = .running (setup.peerId i) (some setup.roomId) point) ∨
    ∃ roomId, s.world.phase i = .running (setup.peerId i) roomId (.roomOk setup.roomId) := by
  obtain ⟨-, ⟨roomId, point, running⟩, room, peers, sent⟩ := present
  have same : room = setup.roomId := paired.rooms i room peers (World.mem_mailTo.mpr sent)
  subst same
  have orderly := (paired.heard i).orderly
  have seat := orderly.mail.seats i _ roomId point running
  have standing := orderly.views.tables.standing i
  rw [running] at standing
  obtain ⟨status, found, inside, -⟩ := standing
  rcases seat.answered setup.roomId status ⟨peers, sent⟩ found with rfl | rfl
  · have member := inside setup.roomId rfl
    have notSession := (orderly.views.tables.member setup.roomId _ member).2.1
    have assigned := seat.assigned setup.roomId found notSession
    subst assigned
    exact Or.inl ⟨member, found, point, running⟩
  · exact Or.inr ⟨roomId, running⟩

theorem Present.later (other : i ≠ j) (presentI : Present setup s i) (presentJ : Present setup s j)
    (paired : Paired setup s.world) :
    Later s.world i (setup.peerId i) j (setup.peerId j) ∨
      Later s.world j (setup.peerId j) i (setup.peerId i) := by
  have apart : setup.peerId i ≠ setup.peerId j := by
    intro same
    obtain ⟨-, ⟨roomI, pointI, runningI⟩, -⟩ := presentI
    obtain ⟨-, ⟨roomJ, pointJ, runningJ⟩, -⟩ := presentJ
    rw [← same] at runningJ
    exact other ((paired.heard i).orderly.mail.handlers.unique i j _
      (congrArg Phase.past? runningI) (congrArg Phase.past? runningJ))
  rcases presentI.member paired with ⟨insideI, foundI, -⟩ | ⟨roomI, waitingI⟩
  · rcases presentJ.member paired with ⟨insideJ, foundJ, -⟩ | ⟨roomJ, waitingJ⟩
    · exact paired.pairs _ i j _ _ apart insideI insideJ foundI foundJ
    · exact Or.inr (paired.entering j i _ _ roomJ _ waitingJ insideI foundI)
  · rcases presentJ.member paired with ⟨insideJ, foundJ, -⟩ | ⟨roomJ, waitingJ⟩
    · exact Or.inl (paired.entering i j _ _ roomI _ waitingI insideJ foundJ)
    · -- two handlers do not wait at the same time
      have busyI : (s.world.phase i).idle = false := by rw [waitingI]; rfl
      have busyJ : (s.world.phase j).idle = false := by rw [waitingJ]; rfl
      exact absurd ((paired.heard i).orderly.mail.rooms.serial i j busyI busyJ) other

/-- A client that is present when no message is being handled is a member. -/
theorem Present.settled (present : Present setup s i) (paired : Paired setup s.world)
    (quiet : s.world.Quiet) :
    setup.peerId i ∈ s.world.server.members setup.roomId ∧
      s.world.server.peers (setup.peerId i) = some ⟨i, some setup.roomId⟩ ∧
      s.world.phase i = .running (setup.peerId i) (some setup.roomId) .recv := by
  have idle := quiet i
  rcases present.member paired with ⟨inside, found, point, running⟩ | ⟨roomId, waiting⟩
  · obtain ⟨roomId, recv⟩ := Phase.running_of_idle idle (congrArg Phase.past? running)
    cases running.symm.trans recv
    exact ⟨inside, found, recv⟩
  · rw [waiting] at idle
    cases idle

theorem Present.relayed (presentI : Present setup s i) (presentJ : Present setup s j)
    (paired : Paired setup s.world) (quiet : s.world.Quiet) {text payload : Text}
    (addressed : Addressed (setup.peerId j) text payload) {order : List Uid} {pick : Option Uid}
    {w' : World} (h : s.world.step (.recv i text order pick) = some w') :
    w'.log = s.world.log ++ [(j, .peerMsg (setup.peerId i) payload)] := by
  have tables := (paired.heard j).orderly.views.tables
  obtain ⟨insideI, foundI, waiting⟩ := presentI.settled paired quiet
  obtain ⟨insideJ, foundJ, -⟩ := presentJ.settled paired quiet
  have valid := tables.member setup.roomId _ insideI
  have message : "ROOM_PEER_MSG".toList <+: text ∧
      splitMax 2 text = ["ROOM_PEER_MSG".toList, setup.peerId j, payload] := by
    have word := (setup.clean j).1
    cases addressed with
    | offer =>
        rw [getOfferSdp_eq]
        exact ⟨List.prefix_append _ _, messageText_fields word initialSdp_head⟩
    | answer =>
        rw [getAnswerSdp_eq]
        exact ⟨List.prefix_append _ _, messageText_fields word replySdp_head⟩
  have turn := turn_of_message waiting foundI ⟨valid.1, valid.2.1⟩ message.1 message.2 foundJ
    order pick
  have opened := tables.usable_of_member insideJ foundJ
  simp only [World.step, turn, Option.map_some] at h
  cases h
  rw [World.apply_log, World.delivered, if_neg opened]

end Exchange

/--
In runs in which each message and disconnect is handled to completion and nobody
asks for the room under a uid that a present client was listed, the newer client
of each pair makes the offer, and the other one answers it once.
-/
theorem offers_answered {setup : Setup} {s : Party}
    (run : (party setup).Reachable (InOrderFresh setup) s) : OffersAnswered setup s := by
  have inv := Fluent.of_reachable run
  refine ⟨?_, ?_, ?_, ?_, ?_, ?_, ?_⟩
  · intro k room peers sent inside
    cases inv.proper k _ inside with
    | listed nodup => exact ⟨nodup, rfl⟩
    | plain notListed notMessage => exact absurd rfl (notListed room peers)
  · intro k reply sent v inside offered
    cases inv.proper k _ inside with
    | hello => exact absurd (List.mem_singleton.mp offered) (getOfferSdp_ne_room v setup)
    | @listed room peers nodup =>
        obtain ⟨other, listed, same⟩ := List.mem_map.mp offered
        rw [getOfferSdp_injective same] at listed
        exact ⟨room, peers, rfl, listed⟩
    | offer => exact absurd (List.mem_singleton.mp offered) (getOfferSdp_ne_answer v _ _)
    | answer => cases offered
    | plain notListed notMessage => cases offered
  · intro k before room peers after whole
    have told : .roomOk room peers ∈ s.world.mailTo k := by
      rw [whole]
      exact List.mem_append_right _ List.mem_cons_self
    exact ⟨(listed_of_roomOk (inv.paired.heard k) told).symm,
      fun room' peers' => listed_once (inv.paired.heard k) whole⟩
  · intro i j other presentI presentJ
    exact presentI.later other presentJ inv.paired
  · intro i j text payload s' order pick other presentI presentJ addressed quiet h
    obtain ⟨world, fires, served⟩ := Option.bind_eq_some_iff.mp h
    obtain ⟨next, -, rfl⟩ := Option.map_eq_some_iff.mp served
    exact presentI.relayed presentJ inv.paired quiet addressed fires
  · intro k u sent inside
    generalize payload : initialSdp = text at inside
    cases inv.proper k _ inside with
    | offer => rfl
    | answer => exact absurd payload (by decide)
    | plain notListed notMessage => exact absurd rfl (notMessage u text)
  · intro k u sent inside
    generalize payload : replySdp = text at inside
    cases inv.proper k _ inside with
    | offer => exact absurd payload (by decide)
    | answer => rfl
    | plain notListed notMessage => exact absurd rfl (notMessage u text)

/-! ## Checking a run -/

/-- `InOrder` on the first `n` connections, the only ones in use. -/
def inOrderBelow (n : Nat) (s : Party) : Move → Bool
  | .server act => sequentialBelow n s.world act
  | .take _ => true

/-- `Fresh` on the first `n` connections. -/
def freshBelow (setup : Setup) (n : Nat) (s : Party) : Move → Bool
  | .server (.recv k msg _ _) => decide (msg ≠ "ROOM ".toList ++ setup.roomId) ||
      (List.range n).all fun j =>
        match s.world.phase j with
        | .running _ _ _ => (s.world.listed j).all fun u => u ≠ setup.peerId k
        | _ => true
  | _ => true

/-- A checked list of moves of `n` connections is a run in order. -/
theorem exists_inOrder (setup : Setup) (n : Nat) (guard : Party → Move → Bool) (moves : List Move)
    (test : Party → Bool)
    (passes : ((party setup).execIf (fun s move => inOrderBelow n s move && guard s move)
      Party.empty moves).any test = true) :
    ∃ s, (party setup).Reachable
      (fun s move => (InOrder s move ∧ guard s move = true) ∧ AbsentFrom n s.world) s ∧
      test s = true := by
  have sound : ∀ s move, AbsentFrom n s.world → (inOrderBelow n s move && guard s move) = true →
      (InOrder s move ∧ guard s move = true) ∧ AbsentFrom n s.world := by
    intro s move absent ok
    obtain ⟨order, guarded⟩ := Bool.and_eq_true_iff.mp ok
    refine ⟨⟨?_, guarded⟩, absent⟩
    cases move with
    | server act => exact sequential_of_below absent order
    | take k => exact True.intro
  have preserved : ∀ s move next, AbsentFrom n s.world →
      (inOrderBelow n s move && guard s move) = true →
      (party setup).step s move = some next → AbsentFrom n next.world := by
    intro s move next absent ok fires
    rcases Party.step_cases fires with ⟨act, rfl, steps, -⟩ | ⟨k, reply, -, -, -, rfl⟩
    · have below := (Bool.and_eq_true_iff.mp (Bool.and_eq_true_iff.mp ok).1).1
      exact absent.step (of_decide_eq_true below) steps
    · exact absent
  cases done : (party setup).execIf (fun s move => inOrderBelow n s move && guard s move)
      Party.empty moves with
  | none => simp [done] at passes
  | some s =>
      have absent : AbsentFrom n Party.empty.world := fun _ _ => rfl
      obtain ⟨run, -⟩ := (party setup).run_of_execIf (fun s => AbsentFrom n s.world) sound
        preserved moves absent done
      exact ⟨s, run, by simpa [done] using passes⟩

theorem fresh_of_below {setup : Setup} {n : Nat} {s : Party} {act : Act}
    (absent : AbsentFrom n s.world) (ok : freshBelow setup n s (.server act) = true) :
    Fresh setup s.world act := by
  rintro k order pick rfl j roomId point running listed
  by_cases small : j < n
  · have all := (Bool.or_eq_true_iff.mp ok).resolve_left (by simp)
    have checked := List.all_eq_true.mp all j (List.mem_range.mpr small)
    rw [running] at checked
    simpa using List.all_eq_true.mp checked _ listed
  · rw [absent j (Nat.le_of_not_lt small)] at running
    cases running

/-- Connection `0` belongs to `x` and the others to `y`. -/
def pairXY : Setup where
  repr := id
  peerId k := if k = 0 then "x".toList else "y".toList
  clean k := by
    split
    · exact ⟨by decide, by decide⟩
    · exact ⟨by decide, by decide⟩
  roomId := "r".toList
  word := by decide

/-- A process greets the server and asks for the room, whose members are `order`. -/
def joining (k : ConnId) (order : List Uid) (pick : Option Uid) : List Move :=
  [.server (.connect k), .server (.recv k ("HELLO ".toList ++ pairXY.peerId k) [] none),
    .server (.resume k false none), .take k,
    .server (.recv k ("ROOM ".toList ++ pairXY.roomId) order none),
    .server (.resume k false pick)]

/-- `y` is in the room when `x` joins it, and answers its offer. -/
def exchange : List Move :=
  joining 1 [] none ++ [.take 1] ++ joining 0 ["y".toList] (some "y".toList) ++
    [.server (.resume 0 false none), .take 0, .server (.recv 0 (getOfferSdp "y".toList) [] none),
      .server (.resume 0 false none), .take 1, .take 1,
      .server (.recv 1 (getAnswerSdp initialSdp "x".toList) [] none),
      .server (.resume 1 false none), .take 0]

/-- `y` leaves, comes back under its uid, and makes an offer to `x`. -/
def comeBack : List Move :=
  [.server (.lose 1), .server (.closed 1 (some "x".toList)), .server (.resume 1 false none),
    .server (.resume 1 false none), .take 0] ++ joining 2 ["x".toList] (some "x".toList) ++
    [.server (.resume 2 false none), .take 2, .server (.recv 2 (getOfferSdp "x".toList) [] none),
      .server (.resume 2 false none), .take 0, .take 0]

/-- An offer and its answer. -/
theorem offers_answered_pair : ∃ s,
    (Reply.peerMsg "x".toList initialSdp, [getAnswerSdp initialSdp "x".toList]) ∈ s.history 1 ∧
    (Reply.peerMsg "y".toList replySdp, []) ∈ s.history 0 ∧ OffersAnswered pairXY s := by
  obtain ⟨s, run, test⟩ := exists_inOrder pairXY 2 (freshBelow pairXY 2) exchange
    (fun s =>
      ((Reply.peerMsg "x".toList initialSdp, [getAnswerSdp initialSdp "x".toList]) ∈ s.history 1) &&
      ((Reply.peerMsg "y".toList replySdp, []) ∈ s.history 0))
    (by decide)
  simp only [Bool.and_eq_true, decide_eq_true_eq] at test
  refine ⟨s, test.1, test.2, offers_answered (run.mono ?_)⟩
  rintro s move ⟨⟨order, guarded⟩, absent⟩
  refine ⟨order, ?_⟩
  rintro act rfl
  exact fresh_of_below absent guarded

/-- The offer of a client that has come back is taken for an answer. -/
theorem offer_unanswered : ∃ s, (party pairXY).Reachable InOrder s ∧
    (s.world.phase 0).past? = some "x".toList ∧ (s.world.phase 2).past? = some "y".toList ∧
    (Reply.peerMsg "y".toList initialSdp, []) ∈ s.history 0 ∧ ¬ OffersAnswered pairXY s := by
  obtain ⟨s, run, test⟩ := exists_inOrder pairXY 3 (fun _ _ => true) (exchange ++ comeBack)
    (fun s => (s.world.phase 0).past? = some "x".toList &&
      (s.world.phase 2).past? = some "y".toList &&
      ((Reply.peerMsg "y".toList initialSdp, []) ∈ s.history 0))
    (by decide)
  simp only [Bool.and_eq_true, decide_eq_true_eq] at test
  obtain ⟨⟨x, y⟩, ignored⟩ := test
  refine ⟨s, run.mono fun _ _ allowed => allowed.1.1, x, y, ignored, ?_⟩
  intro answered
  cases answered.answered 0 "y".toList [] ignored

end GstWebrtc.Multiparty.RoomClient
