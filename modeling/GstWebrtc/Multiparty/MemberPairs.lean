import GstWebrtc.Multiparty.RoomParty
import GstWebrtc.Signalling.Acknowledgement

/-!
# Pairs of members of a room

A process offers to those that its `ROOM_OK` lists and answers everybody else.
Of two members one has the other in its list, the one that came later.  As long
as nobody joins under a uid that a present client was listed, only that one has.
-/

namespace GstWebrtc.Multiparty.RoomClient

open GstWebrtc.Base GstWebrtc.Base.PyText GstWebrtc.Signalling

/-! ## The texts in an outbox -/

inductive Letter (setup : Setup) (w : World) (k : ConnId) : Text → Prop where
  | hello : Letter setup w k ("HELLO ".toList ++ setup.peerId k)
  | room : Letter setup w k ("ROOM ".toList ++ setup.roomId)
  | offer {v} (listed : v ∈ w.listed k) : Letter setup w k (getOfferSdp v)
  | answer {v offer r} (told : r ∈ w.mailTo k) (named : v ∈ r.names) (unlisted : v ∉ w.listed k) :
      Letter setup w k (getAnswerSdp offer v)

section Texts

variable {v : Uid}

theorem initialSdp_head : ∃ c rest, initialSdp = c :: rest ∧ isSpace c = false :=
  ⟨'\x7b', _, rfl, by decide⟩

theorem replySdp_head : ∃ c rest, replySdp = c :: rest ∧ isSpace c = false :=
  ⟨'\x7b', _, rfl, by decide⟩

theorem messageText_eq (v payload : Text) :
    "ROOM_PEER_MSG ".toList ++ v ++ ' ' :: payload =
      "ROOM_PEER_MSG".toList ++ ' ' :: (v ++ ' ' :: payload) := by
  rw [List.append_assoc]
  rfl

theorem getOfferSdp_eq (v : Uid) :
    getOfferSdp v = "ROOM_PEER_MSG".toList ++ ' ' :: (v ++ ' ' :: initialSdp) :=
  messageText_eq v initialSdp

theorem getAnswerSdp_eq (offer v : Text) :
    getAnswerSdp offer v = "ROOM_PEER_MSG".toList ++ ' ' :: (v ++ ' ' :: replySdp) :=
  messageText_eq v replySdp

/-- The fields that the server finds in a message for `v`. -/
theorem messageText_fields {payload : Text} (word : Word v)
    (head : ∃ c rest, payload = c :: rest ∧ isSpace c = false) :
    splitMax 2 ("ROOM_PEER_MSG".toList ++ ' ' :: (v ++ ' ' :: payload)) =
      ["ROOM_PEER_MSG".toList, v, payload] := by
  obtain ⟨c, rest, rfl, notSpace⟩ := head
  exact splitMax_two (show Word "ROOM_PEER_MSG".toList by decide) word notSpace

/-- A command other than `HELLO` and `ROOM` has more than one field after it. -/
theorem messageText_rest {payload : Text} (word : Word v) :
    splitMax 1 ("ROOM_PEER_MSG".toList ++ ' ' :: (v ++ ' ' :: payload)) =
      ["ROOM_PEER_MSG".toList, v ++ ' ' :: payload] := by
  have command : Word "ROOM_PEER_MSG".toList := by decide
  rw [splitMax_word_space 0 _ command isSpace_space]
  cases v with
  | nil => exact absurd rfl word.ne_nil
  | cons c rest =>
      have head : isSpace c = false := word.2 c List.mem_cons_self
      rw [List.cons_append, splitMax_zero _ head]

end Texts

section Lists

variable {w w' : World} {k : ConnId} {v : Uid} {act : Act}

/-- Whom the list of a connection names, the mail does. -/
theorem roomOk_of_listed (listed : v ∈ w.listed k) :
    ∃ room peers, .roomOk room peers ∈ w.mailTo k ∧ v ∈ peers := by
  rw [World.listed, ← World.notices_mailTo] at listed
  obtain ⟨members, given, inside⟩ := Notice.roster_of_mem listed
  obtain ⟨r, told, notice⟩ := List.mem_filterMap.mp given
  cases r with
  | roomOk room peers =>
      cases notice
      exact ⟨room, members, told, inside⟩
  | _ => cases notice

/-- A connection is sent one list. -/
theorem listed_of_roomOk (heard : Heard k w) {room : RoomId} {peers : List Uid}
    (told : .roomOk room peers ∈ w.mailTo k) : w.listed k = peers := by
  rw [World.listed, ← World.notices_mailTo]
  exact Notice.lastRoster_of_grown (Reply.notices_grown heard.grown)
    (List.mem_filterMap.mpr ⟨_, told, rfl⟩)

theorem clean_of_listed (heard : Heard k w) (listed : v ∈ w.listed k) : Clean v := by
  obtain ⟨room, peers, told, inside⟩ := roomOk_of_listed listed
  exact heard.clean _ told v inside

end Lists

namespace Letter

variable {setup : Setup} {w : World} {k : ConnId} {u v : Uid} {msg word payload : Text}

theorem room_command (setup : Setup) :
    splitMax 1 ("ROOM ".toList ++ setup.roomId) = ["ROOM".toList, setup.roomId] := by
  have command : Word "ROOM".toList := by decide
  rw [show "ROOM ".toList ++ setup.roomId = "ROOM".toList ++ ' ' :: setup.roomId from rfl,
    splitMax_word_space 0 _ command isSpace_space, splitMax_word 0 setup.word]

theorem hello_fields (letter : Letter setup w k msg) (heard : Heard k w)
    (fields : splitMax 1 msg = ["HELLO".toList, u]) : u = setup.peerId k := by
  have message : ∀ {v payload}, Clean v →
      splitMax 1 ("ROOM_PEER_MSG".toList ++ ' ' :: (v ++ ' ' :: payload)) ≠
        ["HELLO".toList, u] := by
    intro v payload clean same
    rw [messageText_rest clean.1] at same
    exact absurd (List.cons.inj same).1 (by decide)
  cases letter with
  | hello =>
      have command : Word "HELLO".toList := by decide
      have found : splitMax 1 ("HELLO ".toList ++ setup.peerId k) =
          ["HELLO".toList, setup.peerId k] := by
        rw [show "HELLO ".toList ++ setup.peerId k = "HELLO".toList ++ ' ' :: setup.peerId k from rfl,
          splitMax_word_space 0 _ command isSpace_space, splitMax_word 0 (setup.clean k).1]
      cases fields.symm.trans found
      rfl
  | room =>
      exact absurd (List.cons.inj (fields.symm.trans (room_command setup))).1 (by decide)
  | offer listed =>
      rw [getOfferSdp_eq] at fields
      exact absurd fields (message (clean_of_listed heard listed))
  | answer told named unlisted =>
      rw [getAnswerSdp_eq] at fields
      exact absurd fields (message (heard.clean _ told _ named))

/-- Only the command of the handshake asks for a room. -/
theorem room_fields (letter : Letter setup w k msg) (heard : Heard k w)
    (command : "ROOM".toList <+: msg) {room : RoomId} (fields : splitMax 1 msg = [word, room])
    (valid : Word room) : msg = "ROOM ".toList ++ setup.roomId ∧ room = setup.roomId := by
  have message : ∀ {v payload}, Clean v →
      splitMax 1 ("ROOM_PEER_MSG".toList ++ ' ' :: (v ++ ' ' :: payload)) ≠ [word, room] := by
    intro v payload clean same
    rw [messageText_rest clean.1] at same
    cases same
    exact valid.space_not_mem (List.mem_append_right _ List.mem_cons_self)
  cases letter with
  | hello => exact absurd command (by simp)
  | room =>
      cases fields.symm.trans (room_command setup)
      exact ⟨rfl, rfl⟩
  | offer listed =>
      rw [getOfferSdp_eq] at fields
      exact absurd fields (message (clean_of_listed heard listed))
  | answer told named unlisted =>
      rw [getAnswerSdp_eq] at fields
      exact absurd fields (message (heard.clean _ told _ named))

/-- A message is an offer to someone listed, or an answer to someone else who was named. -/
theorem message_fields (letter : Letter setup w k msg) (heard : Heard k w)
    (command : "ROOM_PEER_MSG".toList <+: msg) (fields : splitMax 2 msg = [word, v, payload]) :
    (∃ r ∈ w.mailTo k, v ∈ r.names) ∧ ((payload = initialSdp ∧ v ∈ w.listed k) ∨
      (payload = replySdp ∧ v ∉ w.listed k)) := by
  cases letter with
  | hello => exact absurd command (by simp)
  | room => exact absurd command (by simp)
  | offer listed =>
      rw [getOfferSdp_eq, messageText_fields (clean_of_listed heard listed).1 initialSdp_head]
        at fields
      cases fields
      obtain ⟨room, peers, told, inside⟩ := roomOk_of_listed listed
      exact ⟨⟨_, told, inside⟩, Or.inl ⟨rfl, listed⟩⟩
  | answer told named unlisted =>
      rw [getAnswerSdp_eq, messageText_fields (heard.clean _ told _ named).1 replySdp_head]
        at fields
      cases fields
      exact ⟨⟨_, told, named⟩, Or.inr ⟨rfl, unlisted⟩⟩

theorem noSession (letter : Letter setup w k msg) (order : List Uid) (pick : Option Uid) :
    noSession (.recv k msg order pick) = true := by
  cases letter <;> rfl

end Letter

/-! ## Who asks for a room, and who is in one -/

section Turns

variable {w : World} {act : Act} {t : Turn} {u : Uid} {roomId : Option RoomId} {room : RoomId}
  {i : ConnId}

/-- A handler that is about to enter a room has just read a `ROOM` command. -/
structure Asks (w : World) (act : Act) (t : Turn) (u : Uid) (room : RoomId) : Prop where
  msg : ∃ msg order pick word, act = .recv act.conn msg order pick ∧ "ROOM".toList <+: msg ∧
    splitMax 1 msg = [word, room] ∧ Word room
  before : ∃ roomId, w.phase act.conn = .running u roomId .recv
  sent : ∃ order, t = .send t.server act.conn (.roomOk room order) t.phase

theorem asks_of_phase (fires : Fires w act t)
    (waiting : t.phase = .running u roomId (.roomOk room)) : Asks w act t u room := by
  have departed : ∀ {uid}, ¬ t.phase.Departing uid := by
    rintro uid (⟨point, leaving⟩ | done)
    · cases waiting.symm.trans leaving
    · cases waiting.symm.trans done
  cases fires with
  | sends runs =>
      cases runs with
      | message before handled =>
          cases handled with
          | newRoom registered idle command fields valid notSession absent lists =>
              cases waiting
              exact ⟨⟨_, _, _, _, rfl, command, fields, valid⟩, ⟨_, before⟩, _, rfl⟩
          | oldRoom registered idle command fields valid notSession found fresh lists =>
              cases waiting
              exact ⟨⟨_, _, _, _, rfl, command, fields, valid⟩, ⟨_, before⟩, _, rfl⟩
          | _ => cases waiting
      | room mayReturn before entered =>
          cases entered with
          | entered registered found announced =>
              obtain ⟨-, -, ⟨it, rfl⟩, -⟩ := announced.sends
              cases waiting
      | joined mayReturn before announced =>
          obtain ⟨-, -, ⟨it, rfl⟩, -⟩ := announced.sends
          cases waiting
  | leaves runs removed => exact absurd removed.departing departed
  | partnerClosed mayReturn before removed => exact absurd removed.departing departed
  | leftSent mayReturn before announced => exact absurd announced.departing departed
  | _ => cases waiting

/-- A member after a turn was one before it, or has just been sent its `ROOM_OK`. -/
theorem member_turn (tables : RoomInvariant w) (fires : Fires w act t)
    (inside : u ∈ t.server.members room) (found : t.server.peers u = some ⟨i, some room⟩)
    (notSession : room ≠ inSession) :
    (u ∈ w.server.members room ∧ w.server.peers u = some ⟨i, some room⟩) ∨
    (i = act.conn ∧ ∃ roomId, w.phase i = .running u roomId (.roomOk room)) := by
  rcases fires.member inside with before | ⟨roomId, waiting⟩
  · refine Or.inl ⟨before, ?_⟩
    obtain ⟨-, -, k, roomId, point, was, -⟩ := tables.member room u before
    cases fires.entry found with
    | kept was' => exact was'
    | linked resumed waiting either was' => exact absurd rfl notSession
    | entered waiting was' =>
        cases was.symm.trans was'
        exact was
  · have standing := tables.standing act.conn
    rw [waiting] at standing
    obtain ⟨status, registered, -, rfl, -⟩ := standing
    cases fires.entry found with
    | kept was => cases registered.symm.trans was
    | linked resumed waiting' either was => exact absurd rfl notSession
    | entered waiting' was =>
        cases registered.symm.trans was
        exact Or.inr ⟨rfl, roomId, waiting⟩

end Turns

/-! ## The invariant -/

/-- `ROOM_OK` was sent to `j` before it was sent to `k`. -/
def Earlier (w : World) (j k : ConnId) : Prop :=
  ∃ before after, w.log = before ++ after ∧
    (∃ room peers, (j, Reply.roomOk room peers) ∈ before) ∧
    ∃ room peers, (k, Reply.roomOk room peers) ∈ after

/-- Member `u` at `i` came later than member `v` at `j`, and alone has the other in its list. -/
structure Later (w : World) (i : ConnId) (u : Uid) (j : ConnId) (v : Uid) : Prop where
  listed : v ∈ w.listed i
  unlisted : u ∉ w.listed j
  earlier : Earlier w j i

structure Paired (setup : Setup) (w : World) : Prop where
  heard : ∀ k, Heard k w
  own : ∀ k u, (w.phase k).uid? = some u → u = setup.peerId k
  rooms : ∀ k room peers, .roomOk room peers ∈ w.mailTo k → room = setup.roomId
  pairs : ∀ room i j u v, u ≠ v → u ∈ w.server.members room → v ∈ w.server.members room →
    w.server.peers u = some ⟨i, some room⟩ → w.server.peers v = some ⟨j, some room⟩ →
    Later w i u j v ∨ Later w j v i u
  entering : ∀ i j u v roomId room, w.phase i = .running u roomId (.roomOk room) →
    v ∈ w.server.members room → w.server.peers v = some ⟨j, some room⟩ → Later w i u j v
  messages : ∀ j u payload, .peerMsg u payload ∈ w.mailTo j →
    (payload = initialSdp ∧ u ∉ w.listed j) ∨ (payload = replySdp ∧ u ∈ w.listed j)

/-- No client whose handler runs was listed the uid of the client that asks for the room. -/
def Fresh (setup : Setup) (w : World) (act : Act) : Prop :=
  ∀ k order pick, act = .recv k ("ROOM ".toList ++ setup.roomId) order pick →
    ∀ j roomId point, w.phase j = .running (setup.peerId j) roomId point →
      setup.peerId k ∉ w.listed j

/-- The acts of a server whose clients are processes of `room-client.py`. -/
structure Spoken (setup : Setup) (w : World) (act : Act) : Prop where
  sequential : Sequential w act
  letter : ∀ k msg order pick, act = .recv k msg order pick → Letter setup w k msg

section Kept

variable {w w' : World} {i j k : ConnId} {u v : Uid} {more : List (ConnId × Reply)}

theorem Earlier.kept (earlier : Earlier w j k) (grown : w'.log = w.log ++ more) :
    Earlier w' j k := by
  obtain ⟨before, after, whole, first, room, peers, second⟩ := earlier
  refine ⟨before, after ++ more, ?_, first, room, peers, List.mem_append_left _ second⟩
  rw [grown, whole, List.append_assoc]

theorem Later.kept (later : Later w i u j v) (grown : w'.log = w.log ++ more)
    (own : w'.listed i = w.listed i) (other : w'.listed j = w.listed j) : Later w' i u j v :=
  ⟨own ▸ later.listed, other ▸ later.unlisted, later.earlier.kept grown⟩

end Kept

namespace Paired

variable {setup : Setup} {w w' : World} {act : Act} {t : Turn} {u v : Uid} {i j k : ConnId}
  {room : RoomId}

theorem init (setup : Setup) : Paired setup World.empty where
  heard := .init
  own := by rintro k u ⟨⟩
  rooms k room peers told := absurd told List.not_mem_nil
  pairs := by
    intro room i j u v other inside
    exact absurd inside (Finset.notMem_empty u)
  entering := by rintro i j u v roomId room ⟨⟩
  messages := by
    intro j u payload told
    exact absurd told List.not_mem_nil

theorem orderly (spoken : Spoken setup w act) : Orderly w act := by
  refine ⟨spoken.sequential, ?_⟩
  cases act with
  | recv k msg order pick => exact (spoken.letter k msg order pick rfl).noSession order pick
  | _ => rfl

theorem nulFree (inv : Paired setup w) (act : Act) : Signalling.nulFree w act = true := by
  unfold Signalling.nulFree
  split
  · next k pick =>
      split
      · next u waiting =>
          have own : u = setup.peerId k := inv.own k u (congrArg Phase.uid? waiting)
          rw [own]
          exact decide_eq_true (setup.clean k).2
      · rfl
  · rfl

/-- A process sends no message to its own uid. -/
theorem notSelf (inv : Paired setup w) (spoken : Spoken setup w act) (k : ConnId) :
    NotSelf k w act := by
  rintro msg order pick u roomId word payload rfl waiting command fields
  obtain ⟨⟨r, told, named⟩, -⟩ :=
    (spoken.letter k msg order pick rfl).message_fields (inv.heard k) command fields
  exact (inv.heard k).unnamed u (congrArg Phase.past? waiting) r told named

theorem heard_step (inv : Paired setup w) (spoken : Spoken setup w act)
    (h : w.step act = some w') (k : ConnId) : Heard k w' :=
  (inv.heard k).step (orderly spoken) (inv.nulFree act) (inv.notSelf spoken k) h

/-- A handler works for the uid of the process at its connection. -/
theorem own_step (inv : Paired setup w) (spoken : Spoken setup w act)
    (h : w.step act = some w') (named : (w'.phase k).uid? = some u) : u = setup.peerId k := by
  rcases step_cases h with ⟨j, rfl, absent, rfl⟩ | ⟨j, rfl, usable, rfl⟩ | ⟨t, fires, rfl⟩
  · rw [World.phase_setConn] at named
    split at named
    · cases named
    · exact inv.own k u named
  · rw [World.phase_lose] at named
    exact inv.own k u named
  · by_cases self : k = act.conn
    · subst self
      rw [World.apply_phase_self] at named
      rcases fires.named named with before | ⟨-, k, msg, order, pick, rfl, fields⟩
      · exact inv.own act.conn u before
      · exact (spoken.letter k msg order pick rfl).hello_fields (inv.heard k) fields
    · rw [World.apply_phase_of_ne _ _ _ self] at named
      exact inv.own k u named

/-- Everybody asks for the one room. -/
theorem rooms_step (inv : Paired setup w) (spoken : Spoken setup w act)
    (h : w.step act = some w') {peers : List Uid} (told : .roomOk room peers ∈ w'.mailTo k) :
    room = setup.roomId := by
  rcases mail_step h k with same | ⟨srv, reply, phase, fires, rfl, grown⟩
  · exact inv.rooms k room peers (same ▸ told)
  · rw [grown, List.mem_append, List.mem_singleton] at told
    rcases told with before | rfl
    · exact inv.rooms k room peers before
    · by_cases shut : w.socket k = .closed
      · rw [World.mailTo_of_log (w.apply_log act.conn _), World.delivered, if_pos shut] at grown
        simp at grown
      · have sent : (k, Reply.roomOk room peers) ∈
            w.delivered (.send srv k (.roomOk room peers) phase) := by
          simp [World.delivered, shut]
        obtain ⟨-, -, u, waiting⟩ := fires.roomOk sent
        obtain ⟨⟨msg, order, pick, word, acts, command, fields, valid⟩, -, -⟩ :=
          asks_of_phase fires waiting
        exact ((spoken.letter act.conn msg order pick acts).room_fields (inv.heard act.conn)
          command fields valid).2

/-- Who was sent a list keeps it. -/
theorem listed_step (inv : Paired setup w) (spoken : Spoken setup w act)
    (h : w.step act = some w') (sent : SentRoomOk w k room) : w'.listed k = w.listed k := by
  obtain ⟨peers, sent⟩ := sent
  have told : .roomOk room peers ∈ w.mailTo k := World.mem_mailTo.mpr sent
  rw [listed_of_roomOk (inv.heard k) told,
    listed_of_roomOk (inv.heard_step spoken h k) (mail_kept h told)]

/-- A member was sent its list. -/
theorem sent_of_member (inv : Paired setup w) (inside : v ∈ w.server.members room)
    (registered : w.server.peers v = some ⟨j, some room⟩) : SentRoomOk w j room := by
  obtain ⟨roomId, point, running⟩ :=
    (inv.heard j).orderly.views.tables.running_of_member inside registered
  exact (inv.heard j).member v roomId point room running registered

theorem pairs_turn (inv : Paired setup w) (spoken : Spoken setup w act) (fires : Fires w act t)
    (h : w.step act = some (w.apply act.conn t)) (notSession : room ≠ inSession) (other : u ≠ v)
    (insideU : u ∈ t.server.members room) (insideV : v ∈ t.server.members room)
    (foundU : t.server.peers u = some ⟨i, some room⟩)
    (foundV : t.server.peers v = some ⟨j, some room⟩) :
    Later (w.apply act.conn t) i u j v ∨ Later (w.apply act.conn t) j v i u := by
  have before := (inv.heard i).orderly.views.tables
  have kept : ∀ {i u j v}, SentRoomOk w i room → SentRoomOk w j room → Later w i u j v →
      Later (w.apply act.conn t) i u j v := fun sentI sentJ later =>
    later.kept (w.apply_log act.conn t) (inv.listed_step spoken h sentI)
      (inv.listed_step spoken h sentJ)
  rcases member_turn before fires insideU foundU notSession with
    ⟨wasU, entryU⟩ | ⟨rfl, roomId, waiting⟩
  · have sentU := inv.sent_of_member wasU entryU
    rcases member_turn before fires insideV foundV notSession with
      ⟨wasV, entryV⟩ | ⟨rfl, roomId, waiting⟩
    · have sentV := inv.sent_of_member wasV entryV
      exact (inv.pairs room i j u v other wasU wasV entryU entryV).imp (kept sentU sentV)
        (kept sentV sentU)
    · have sentV := (inv.heard _).asked v roomId room waiting
      exact Or.inr (kept sentV sentU (inv.entering _ i v u roomId room waiting wasU entryU))
  · have sentU := (inv.heard _).asked u roomId room waiting
    rcases member_turn before fires insideV foundV notSession with
      ⟨wasV, entryV⟩ | ⟨rfl, roomId', waiting'⟩
    · have sentV := inv.sent_of_member wasV entryV
      exact Or.inl (kept sentU sentV (inv.entering _ j u v roomId room waiting wasV entryV))
    · cases waiting.symm.trans waiting'
      exact absurd rfl other

/-- Who is about to enter the room was listed its members, and by `fresh` none of them it. -/
theorem entering_turn (inv : Paired setup w) (spoken : Spoken setup w act)
    (fresh : Fresh setup w act) (fires : Fires w act t)
    (h : w.step act = some (w.apply act.conn t)) {roomId : Option RoomId}
    (waiting : t.phase = .running u roomId (.roomOk room)) (inside : v ∈ t.server.members room)
    (found : t.server.peers v = some ⟨j, some room⟩) :
    Later (w.apply act.conn t) act.conn u j v := by
  have heard := inv.heard_step spoken h
  have tables := (heard j).orderly.views.tables
  have before := (inv.heard j).orderly.views.tables
  have notSession : room ≠ inSession := (tables.member room v (by rwa [World.apply_server])).2.1
  obtain ⟨⟨msg, order, pick, word, acts, command, fields, valid⟩, ⟨roomId', was⟩,
    peers, sends⟩ := asks_of_phase fires waiting
  obtain ⟨wasV, entryV⟩ : v ∈ w.server.members room ∧ w.server.peers v = some ⟨j, some room⟩ := by
    refine (member_turn before fires inside found notSession).resolve_right ?_
    rintro ⟨rfl, roomId'', entering⟩
    cases was.symm.trans entering
  obtain ⟨roomIdV, pointV, runningV⟩ := before.running_of_member wasV entryV
  have opened := before.usable act.conn (Or.inr (Or.inr ⟨_, _, _, was⟩))
  refine ⟨?_, ?_, ?_⟩
  · have list := (heard act.conn).orderly.listing act.conn u roomId room
      ((World.apply_phase_self ..).trans waiting)
    rw [← List.mem_toFinset, list, World.apply_server]
    exact inside
  · have text : msg = "ROOM ".toList ++ setup.roomId :=
      ((spoken.letter act.conn msg order pick acts).room_fields (inv.heard act.conn) command
        fields valid).1
    have ownU : u = setup.peerId act.conn := inv.own act.conn u (congrArg Phase.uid? was)
    have ownV : v = setup.peerId j := inv.own j v (congrArg Phase.uid? runningV)
    rw [inv.listed_step spoken h (inv.sent_of_member wasV entryV), ownU]
    exact fresh act.conn order pick (by rw [← text]; exact acts) j roomIdV pointV
      (ownV ▸ runningV)
  · refine ⟨w.log, w.delivered t, World.apply_log .., ?_, room, peers, ?_⟩
    · obtain ⟨list, sent⟩ := inv.sent_of_member wasV entryV
      exact ⟨room, list, sent⟩
    · rw [sends]
      simp [World.delivered, opened]

/-- The members on both ends of a message. -/
theorem message_sent (inv : Paired setup w) (spoken : Spoken setup w act)
    {srv : WebRTCSimpleServer} {payload : Text} {phase : Phase}
    (fires : Fires w act (.send srv j (.peerMsg u payload) phase)) :
    (payload = initialSdp ∧ u ∉ w.listed j) ∨ (payload = replySdp ∧ u ∈ w.listed j) := by
  have orderly := (inv.heard j).orderly
  rcases fires.sends_message with hello | ⟨v, joined | left⟩ |
    ⟨k, uid, roomId, roomId', order, pick, msg, next, rfl, waiting, rfl, handled⟩
  · cases hello
  · cases joined
  · cases left
  · cases handled with
    | @peerMsg peer room word other _ target current registered member command fields found
        assigned sameRoom =>
        obtain ⟨c, partnerStatus⟩ := target
        obtain ⟨status, nonempty, notSession⟩ := member
        -- the sender is a member of the room
        have standing := orderly.views.tables.standing k
        rw [waiting] at standing
        obtain ⟨status', entry, inside, -⟩ := standing
        cases registered.symm.trans entry
        have seat := orderly.mail.seats k u roomId .recv waiting
        have here : current = room := by
          have own := seat.assigned room (status ▸ entry) notSession
          exact Option.some.inj (assigned.symm.trans own)
        subst here
        have wasU := inside current status
        -- and so is the recipient, whose handler waits
        have past := (orderly.mail.rooms.owner other _ found).1
        obtain ⟨roomIdV, running⟩ := Phase.running_of_idle (spoken.sequential c) past
        have standing := orderly.views.tables.standing c
        rw [running] at standing
        obtain ⟨statusV, entryV, insideV, -⟩ := standing
        cases found.symm.trans entryV
        have wasV := insideV current sameRoom
        obtain ⟨⟨r, told, named⟩, kind⟩ :=
          (spoken.letter k msg order pick rfl).message_fields (inv.heard k) command fields
        have apart : u ≠ other := by
          rintro rfl
          exact (inv.heard k).unnamed u (congrArg Phase.past? waiting) r told named
        simp only at status sameRoom
        subst status sameRoom
        rcases inv.pairs current k _ u other apart wasU wasV entry found with later | later
        · rcases kind with ⟨rfl, listed⟩ | ⟨rfl, unlisted⟩
          · exact Or.inl ⟨rfl, later.unlisted⟩
          · exact absurd later.listed unlisted
        · rcases kind with ⟨rfl, listed⟩ | ⟨rfl, unlisted⟩
          · exact absurd listed later.unlisted
          · exact Or.inr ⟨rfl, later.listed⟩

theorem messages_step (inv : Paired setup w) (spoken : Spoken setup w act)
    (h : w.step act = some w') {payload : Text} (told : .peerMsg u payload ∈ w'.mailTo j) :
    (payload = initialSdp ∧ u ∉ w'.listed j) ∨ (payload = replySdp ∧ u ∈ w'.listed j) := by
  have earlier : .peerMsg u payload ∈ w.mailTo j →
      (payload = initialSdp ∧ u ∉ w'.listed j) ∨ (payload = replySdp ∧ u ∈ w'.listed j) := by
    intro before
    obtain ⟨room, sent⟩ := (inv.heard j).heard _ before rfl
    rw [inv.listed_step spoken h sent]
    exact inv.messages j u payload before
  rcases mail_step h j with same | ⟨srv, reply, phase, fires, rfl, grown⟩
  · exact earlier (same ▸ told)
  · rw [grown, List.mem_append, List.mem_singleton] at told
    rcases told with before | rfl
    · exact earlier before
    · have silent : (Turn.send srv j (.peerMsg u payload) phase).notice = none := rfl
      rw [World.listed_apply_none (noticeTo_of_silent silent)]
      exact inv.message_sent spoken fires

theorem step (inv : Paired setup w) (spoken : Spoken setup w act) (fresh : Fresh setup w act)
    (h : w.step act = some w') : Paired setup w' := by
  have heard := inv.heard_step spoken h
  refine ⟨heard, fun k u named => inv.own_step spoken h named,
    fun k room peers told => inv.rooms_step spoken h told, ?_, ?_,
    fun j u payload told => inv.messages_step spoken h told⟩
  · intro room i j u v other insideU insideV foundU foundV
    have tables := (heard i).orderly.views.tables
    rcases sequential_cases (inv.heard i).orderly.mail.rooms.serial spoken.sequential h with
      env | ⟨t, fires, rfl, others⟩
    · have list : ∀ k, w'.listed k = w.listed k := fun k => by
        rw [World.listed, World.notices, env.log, World.listed, World.notices]
      rw [env.server] at insideU insideV foundU foundV
      have log : w'.log = w.log ++ [] := by rw [env.log, List.append_nil]
      exact (inv.pairs room i j u v other insideU insideV foundU foundV).imp
        (fun later => later.kept log (list i) (list j))
        (fun later => later.kept log (list j) (list i))
    · have notSession := (tables.member room u insideU).2.1
      rw [World.apply_server] at insideU insideV foundU foundV
      exact inv.pairs_turn spoken fires h notSession other insideU insideV foundU foundV
  · intro i j u v roomId room waiting inside found
    rcases sequential_cases (inv.heard i).orderly.mail.rooms.serial spoken.sequential h with
      env | ⟨t, fires, rfl, others⟩
    · have list : ∀ k, w'.listed k = w.listed k := fun k => by
        rw [World.listed, World.notices, env.log, World.listed, World.notices]
      rw [env.idle (by rw [waiting]; rfl)] at waiting
      rw [env.server] at inside found
      have log : w'.log = w.log ++ [] := by rw [env.log, List.append_nil]
      exact (inv.entering i j u v roomId room waiting inside found).kept log (list i) (list j)
    · have self : i = act.conn := by
        by_contra other
        have idle := others i other
        rw [World.apply_phase_of_ne _ _ _ other] at waiting
        rw [waiting] at idle
        cases idle
      subst self
      rw [World.apply_phase_self] at waiting
      rw [World.apply_server] at inside found
      exact inv.entering_turn spoken fresh fires h waiting inside found

end Paired

end GstWebrtc.Multiparty.RoomClient
