import GstWebrtc.Signalling.OrderlyRooms

/-!
# The mail of one client

In orderly runs every text for a client fits those before it: one list of the
room, arrivals of peers that it does not know, and departures of and messages
from peers that it does know.
-/

namespace GstWebrtc.Signalling

open GstWebrtc.Base GstWebrtc.Base.PyText WebRTCSimpleServer

/-- A uid that a C string can hold. -/
def Clean (u : Uid) : Prop := Word u ∧ '\x00' ∉ u

namespace Reply

/-- The uids in a text that only members of a room are sent. -/
def names : Reply → List Uid
  | roomOk _ peers => peers
  | peerJoined uid | peerLeft uid | peerMsg uid _ => [uid]
  | _ => []

/-- The texts that only members of a room are sent. -/
def ofRoom : Reply → Bool
  | roomOk _ _ | peerJoined _ | peerLeft _ | peerMsg _ _ => true
  | _ => false

/-- The notices among `replies`. -/
def notices (replies : List Reply) : List (Notice Uid) := replies.filterMap notice

/-- What a client can be told after `before`. -/
def Fits (before : List Reply) : Reply → Prop
  | peerMsg uid _ => uid ∈ Notice.view (notices before)
  | relay _ => False
  | r => ∀ n, r.notice = some n → n.Fits (notices before)

theorem notices_append (before after : List Reply) :
    notices (before ++ after) = notices before ++ notices after :=
  List.filterMap_append

theorem about_of_notice {r : Reply} {n : Notice Uid} (h : r.notice = some n) :
    n.about = r.names := by
  cases r with
  | roomOk room peers =>
      cases h
      rfl
  | peerJoined uid =>
      cases h
      rfl
  | peerLeft uid =>
      cases h
      rfl
  | _ => cases h

/-- The notices of fitting mail fit each other. -/
theorem notices_grown {replies : List Reply} (h : Grown Fits replies) :
    Grown Notice.Fits (notices replies) := by
  induction h with
  | nil => exact .nil
  | @snoc before r grown fits ih =>
      rw [notices_append]
      cases silent : r.notice with
      | none => simpa [notices, silent] using ih
      | some n =>
          have told : notices [r] = [n] := by simp [notices, silent]
          rw [told]
          refine .snoc ih ?_
          cases r with
          | peerMsg uid msg => cases silent
          | relay msg => exact fits.elim
          | _ => exact fits n silent

end Reply

namespace World

/-- The replies put on a connection so far. -/
def mailTo (w : World) (k : ConnId) : List Reply :=
  w.log.filterMap fun entry => if entry.1 = k then some entry.2 else none

theorem notices_mailTo (w : World) (k : ConnId) : Reply.notices (w.mailTo k) = w.notices k := by
  unfold Reply.notices mailTo notices
  rw [List.filterMap_filterMap]
  congr 1
  funext entry
  by_cases here : entry.1 = k
  · simp [here]
  · simp [here]

theorem view_mailTo (w : World) (k : ConnId) :
    Notice.view (Reply.notices (w.mailTo k)) = w.view k := by
  rw [notices_mailTo, view]

theorem mem_mailTo {w : World} {k : ConnId} {r : Reply} : r ∈ w.mailTo k ↔ (k, r) ∈ w.log := by
  simp only [mailTo, List.mem_filterMap]
  constructor
  · rintro ⟨entry, inside, same⟩
    split at same
    · next here =>
        cases same
        rw [← here]
        exact inside
    · cases same
  · intro inside
    exact ⟨(k, r), inside, if_pos rfl⟩

theorem mailTo_of_log {w w' : World} {entries : List (ConnId × Reply)}
    (h : w'.log = w.log ++ entries) (k : ConnId) :
    w'.mailTo k =
      w.mailTo k ++ entries.filterMap fun entry => if entry.1 = k then some entry.2 else none := by
  rw [mailTo, h, List.filterMap_append, mailTo]

/-- What a turn adds to the mail of a connection: nothing, or the reply that it sends there. -/
theorem mailTo_apply (w : World) (j k : ConnId) (t : Turn) :
    (w.apply j t).mailTo k = w.mailTo k ∨
    ∃ srv reply phase, t = .send srv k reply phase ∧
      (w.apply j t).mailTo k = w.mailTo k ++ [reply] := by
  rw [mailTo_of_log (w.apply_log j t) k]
  cases t with
  | send srv target reply phase =>
      by_cases shut : w.socket target = .closed
      · exact Or.inl (by simp [delivered, shut])
      · by_cases here : target = k
        · subst here
          exact Or.inr ⟨srv, reply, phase, rfl, by simp [delivered, shut]⟩
        · exact Or.inl (by simp [delivered, shut, here])
  | _ => exact Or.inl (by simp [delivered])

/-- Mail is only ever added. -/
theorem mailTo_step {w w' : World} {act : Act} (h : w.step act = some w') (k : ConnId) :
    ∃ more, w'.mailTo k = w.mailTo k ++ more := by
  rcases step_cases h with ⟨j, -, -, rfl⟩ | ⟨j, -, -, rfl⟩ | ⟨t, -, rfl⟩
  · exact ⟨[], (List.append_nil _).symm⟩
  · exact ⟨[], (List.append_nil _).symm⟩
  · exact ⟨_, mailTo_of_log (w.apply_log act.conn t) k⟩

end World

/-- No uid with a NUL character is registered. -/
def nulFree (w : World) : Act → Bool
  | .resume k false _ =>
      match w.phase k with
      | .ack u => '\x00' ∉ u
      | _ => true
  | _ => true

/-- The handler of connection `k` takes no `ROOM_PEER_MSG` that names its own uid. -/
def NotSelf (k : ConnId) (w : World) (act : Act) : Prop :=
  ∀ msg order pick u roomId word payload, act = .recv k msg order pick →
    w.phase k = .running u roomId .recv → "ROOM_PEER_MSG".toList <+: msg →
    splitMax 2 msg ≠ [word, u, payload]

/-! ## The invariant -/

structure Heard (k : ConnId) (w : World) : Prop where
  orderly : OrderlyRooms w
  nulFree : ∀ j u, (w.phase j).past? = some u → '\x00' ∉ u
  asked : ∀ u roomId room, w.phase k = .running u roomId (.roomOk room) → SentRoomOk w k room
  member : ∀ u roomId point room, w.phase k = .running u roomId point →
    w.server.peers u = some ⟨k, some room⟩ → SentRoomOk w k room
  heard : ∀ r ∈ w.mailTo k, r.ofRoom = true → ∃ room, SentRoomOk w k room
  grown : Grown Reply.Fits (w.mailTo k)
  clean : ∀ r ∈ w.mailTo k, ∀ p ∈ r.names, Clean p
  unnamed : ∀ u, (w.phase k).past? = some u → ∀ r ∈ w.mailTo k, u ∉ r.names

/-- What a reply to the client of connection `k` must be like. -/
structure Hears (k : ConnId) (w : World) (r : Reply) : Prop where
  fits : r.Fits (w.mailTo k)
  names : ∀ p ∈ r.names, Clean p ∧ (w.phase k).past? ≠ some p
  heard : r.ofRoom = true → (∃ room, SentRoomOk w k room) ∨ ∃ room peers, r = .roomOk room peers

theorem Reply.ofRoom_of_names {r : Reply} {p : Uid} (h : p ∈ r.names) : r.ofRoom = true := by
  cases r with
  | roomOk room peers => rfl
  | peerJoined uid => rfl
  | peerLeft uid => rfl
  | peerMsg uid msg => rfl
  | _ => exact absurd h List.not_mem_nil

namespace Heard

variable {w w' : World} {act : Act} {k : ConnId} {u : Uid} {room : RoomId}

theorem clean_of_past (inv : Heard k w) {j : ConnId} (past : (w.phase j).past? = some u) :
    Clean u :=
  ⟨inv.orderly.mail.named j u (Phase.uid_of_past past), inv.nulFree j u past⟩

theorem clean_of_member (inv : Heard k w) (inside : u ∈ w.server.members room) : Clean u := by
  obtain ⟨-, -, j, roomId, point, -, running⟩ := inv.orderly.views.tables.member room u inside
  exact inv.clean_of_past (congrArg Phase.past? running)

/-- A client that was sent no list was told nothing. -/
theorem notices_nil (inv : Heard k w) (unanswered : ∀ room, ¬ SentRoomOk w k room) :
    Reply.notices (w.mailTo k) = [] := by
  rw [Reply.notices, List.filterMap_eq_nil_iff]
  intro r inside
  cases notice : r.notice with
  | none => rfl
  | some n =>
      have ofRoom : r.ofRoom = true := by
        cases r with
        | roomOk room peers => rfl
        | peerJoined uid => rfl
        | peerLeft uid => rfl
        | _ => cases notice
      obtain ⟨room, sent⟩ := inv.heard r inside ofRoom
      exact absurd sent (unanswered room)

/-- No text for the client is a relayed one. -/
theorem not_relay (inv : Heard k w) {r : Reply} (inside : r ∈ w.mailTo k) (msg : Text) :
    r ≠ .relay msg := by
  rintro rfl
  obtain ⟨before, after, whole⟩ := List.append_of_mem inside
  have grown := inv.grown
  rw [whole] at grown
  exact grown.fits

/-- A member's connection is told of another one's arrival or departure. -/
theorem hears_of_member (inv : Heard k w) {v : Uid} {peer : Peer} {r : Reply}
    (inside : v ∈ w.server.members room) (found : w.server.peers v = some peer) (own : peer.ws = k)
    (names : r.names = [u]) (other : v ≠ u) (clean : Clean u) (fits : r.Fits (w.mailTo k)) :
    Hears k w r := by
  subst own
  obtain ⟨-, -, j, roomId, point, found', running⟩ :=
    inv.orderly.views.tables.member room v inside
  cases found.symm.trans found'
  refine ⟨fits, ?_, fun _ => Or.inl ⟨room, inv.member v roomId point room running found⟩⟩
  intro p named
  rw [names] at named
  cases List.mem_singleton.mp named
  refine ⟨clean, fun past => other ?_⟩
  rw [running] at past
  exact Option.some.inj past

/-- A member's connection is told of an arrival that it does not know of. -/
theorem hears_joined (inv : Heard k w) {v : Uid} {peer : Peer} {j : ConnId}
    (past : (w.phase j).past? = some u) (inside : v ∈ w.server.members room)
    (found : w.server.peers v = some peer) (own : peer.ws = k) (other : v ≠ u)
    (unknown : w.server.peers v = some ⟨k, some room⟩ → u ∉ w.view k) :
    Hears k w (.peerJoined u) := by
  subst own
  obtain ⟨registered, -⟩ := inv.orderly.views.tables.recipient inside other found past
  refine inv.hears_of_member inside found rfl rfl other (inv.clean_of_past past) ?_
  rintro n ⟨⟩
  rw [Notice.Fits, World.view_mailTo]
  exact unknown registered

/-- A member's connection is told of the departure of one that it knows. -/
theorem hears_left (inv : Heard k w) {v : Uid} {peer : Peer} {j : ConnId}
    (past : (w.phase j).past? = some u) (inside : v ∈ w.server.members room)
    (found : w.server.peers v = some peer) (own : peer.ws = k) (other : v ≠ u)
    (known : w.server.peers v = some ⟨k, some room⟩ → u ∈ w.view k) :
    Hears k w (.peerLeft u) := by
  subst own
  obtain ⟨registered, -⟩ := inv.orderly.views.tables.recipient inside other found past
  refine inv.hears_of_member inside found rfl rfl other (inv.clean_of_past past) ?_
  rintro n ⟨⟩
  rw [Notice.Fits, World.view_mailTo]
  exact known registered

/-- Between announcements, a member's message comes from one that the recipient knows. -/
theorem hears_peerMsg (inv : Heard k w) (quiet : w.Quiet) {j : ConnId} {other : Uid}
    {payload : Text} {roomId : Option RoomId} {peer target : Peer} {current : RoomId}
    (waiting : w.phase j = .running u roomId .recv) (registered : w.server.peers u = some peer)
    (member : IsRoom peer.status room) (found : w.server.peers other = some target)
    (assigned : roomId = some current) (sameRoom : target.status = some current)
    (here : target.ws = k) (apart : other ≠ u) : Hears k w (.peerMsg u payload) := by
  subst here
  have past := congrArg Phase.past? waiting
  have own := inv.orderly.mail.handlers.own j u peer past registered
  have entry : w.server.peers u = some ⟨j, some room⟩ := by
    rw [registered, ← own, ← member.1]
  have same := (inv.orderly.mail.seats j u roomId _ waiting).assigned room entry member.2.2
  cases same.symm.trans assigned
  have standing := inv.orderly.views.tables.standing j
  rw [waiting] at standing
  obtain ⟨status, found', inside, -⟩ := standing
  cases entry.symm.trans found'
  have addressee : w.server.peers other = some ⟨target.ws, some room⟩ := by
    rw [found, ← sameRoom]
  have listed : other ∈ w.server.members room := by
    have counted := inv.orderly.mail.rooms.tables.counted other target room found sameRoom
      member.2.2
    refine counted.resolve_left ?_
    rintro ⟨i, ws, r, it, leaving⟩
    have idle := quiet i
    rw [leaving] at idle
    cases idle
  refine inv.hears_of_member listed found rfl rfl apart (inv.clean_of_past past) ?_
  rw [Reply.Fits, World.view_mailTo]
  refine (inv.orderly.views.view room other _ u listed addressee apart.symm ?_).mpr
    (inside room rfl)
  intro i owes
  exact absurd owes.announces (by simp [Phase.announces_of_idle (quiet i)])

/-- A message that is no notice comes from a member that the recipient knows. -/
theorem hears_message (inv : Heard k w) (allowed : Orderly w act) (notSelf : NotSelf k w act)
    {srv : WebRTCSimpleServer} {reply : Reply} {phase : Phase}
    (fires : Fires w act (.send srv k reply phase)) (silent : reply.notice = none) :
    Hears k w reply := by
  have plain : ∀ {r : Reply}, r.names = [] → r.ofRoom = false → r.Fits (w.mailTo k) →
      Hears k w r := by
    intro r names room fits
    refine ⟨fits, ?_, ?_⟩
    · intro p named
      rw [names] at named
      exact absurd named List.not_mem_nil
    · intro ofRoom
      rw [room] at ofRoom
      cases ofRoom
  have easy : (∀ msg, reply ≠ .relay msg) → (∀ uid msg, reply ≠ .peerMsg uid msg) →
      Hears k w reply := by
    intro notRelay notMessage
    cases reply with
    | relay msg => exact absurd rfl (notRelay msg)
    | peerMsg uid msg => exact absurd rfl (notMessage uid msg)
    | roomOk room peers => cases silent
    | peerJoined uid => cases silent
    | peerLeft uid => cases silent
    | _ => exact plain rfl rfl (by rintro n ⟨⟩)
  generalize turn : Turn.send srv k reply phase = t at fires
  cases fires with
  | greeted waiting fields absent word =>
      cases turn
      exact easy (by simp) (by simp)
  | @sends act u roomId srv roomId' target reply next runs =>
      cases turn
      cases runs with
      | @message j msg order pick body waiting handled =>
          generalize sends : Body.send srv roomId' k reply next = body at handled
          cases handled with
          | relay registered busy linked found partnerBusy =>
              cases (inv.orderly.views.tables.alone u).symm.trans linked
          | @peerMsg peer room word other payload target current registered member command fields
              found assigned sameRoom =>
              cases sends
              -- the recipient does not write to itself
              have apart : other ≠ u := by
                rintro rfl
                cases registered.symm.trans found
                have own := inv.orderly.mail.handlers.own j _ _ (congrArg Phase.past? waiting)
                  registered
                subst own
                exact notSelf msg order pick other roomId word payload rfl waiting command fields
              exact inv.hears_peerMsg allowed.sequential waiting registered member found assigned
                sameRoom rfl apart
          | raise reason => cases sends
          | ignored registered idle notSession notRoom => cases sends
          | newRoom registered idle command fields valid notSession absent lists =>
              cases sends
              cases silent
          | oldRoom registered idle command fields valid notSession found fresh lists =>
              cases sends
              cases silent
          | _ =>
              cases sends
              exact easy (by simp) (by simp)
      | room mayReturn waiting entered =>
          cases entered with
          | entered registered found announced =>
              obtain ⟨rfl, -⟩ := announced.sends
              cases silent
      | joined mayReturn waiting announced =>
          obtain ⟨rfl, -⟩ := announced.sends
          cases silent
  | leaves runs removed =>
      subst turn
      obtain ⟨room, -, left⟩ := removed.sends
      rw [left.notice] at silent
      cases silent
  | partnerClosed mayReturn waiting removed =>
      subst turn
      obtain ⟨room, -, left⟩ := removed.sends
      rw [left.notice] at silent
      cases silent
  | leftSent mayReturn waiting announced =>
      subst turn
      rw [announced.sends.notice] at silent
      cases silent
  | _ => cases turn

/-- Everything that a turn sends to the client of connection `k`. -/
theorem hears (inv : Heard k w) (allowed : Orderly w act) (notSelf : NotSelf k w act)
    {srv : WebRTCSimpleServer} {reply : Reply} {phase : Phase}
    (fires : Fires w act (.send srv k reply phase)) : Hears k w reply := by
  obtain ⟨own, turn⟩ :=
    inv.orderly.views.tables.roomStep (inv.orderly.roomClients allowed).2 fires
  generalize sends : Turn.send srv k reply phase = t at fires turn
  cases turn with
  | still server silent before after =>
      subst sends
      exact inv.hears_message allowed notSelf fires silent
  | registers waiting => cases sends
  | @lists j msg order pick u roomId room srv waiting idle nonempty notSession created nodup lists =>
      cases sends
      have outside := inv.orderly.views.tables.outside_of_idle idle room
      have unanswered := (inv.orderly.mail.seats k u roomId _ waiting).unanswered idle (by simp)
      refine ⟨?_, ?_, fun _ => Or.inr ⟨room, order, rfl⟩⟩
      · rintro n ⟨⟩
        exact ⟨inv.notices_nil unanswered, nodup⟩
      · intro p named
        rw [Reply.names, ← List.mem_toFinset, lists] at named
        refine ⟨inv.clean_of_member named, fun past => ?_⟩
        rw [waiting] at past
        cases past
        exact outside named
  | @enters j pick u roomId room set t waiting idle nonempty notSession found round =>
      cases round with
      | done same all => cases sends
      | tell same member other fresh entry =>
          cases sends
          rw [PySet.elems_add] at member
          have inside := (Finset.mem_insert.mp member).resolve_left other
          rw [← members_of_rooms found] at inside
          rw [peers_writeRoom, peers_writePeer, Function.update_of_ne other] at entry
          have past := congrArg Phase.past? waiting
          refine inv.hears_joined past inside entry rfl other fun registered => ?_
          rw [inv.orderly.views.agrees past inside registered other.symm
            (by simp [waiting, Phase.Owes])]
          exact inv.orderly.views.tables.outside_of_idle idle room
  | @joins j pick u roomId room it set t waiting found round =>
      cases round with
      | done same all => cases sends
      | tell same member other fresh entry =>
          cases sends
          have inside := member
          rw [← members_of_rooms found] at inside
          have point := inv.orderly.mail.rooms.point j
          rw [waiting] at point
          obtain ⟨set', found', current⟩ := point
          cases found.symm.trans found'
          exact inv.hears_joined (congrArg Phase.past? waiting) inside entry rfl other
            (inv.orderly.joining j u roomId room it _ _ waiting other (fresh current.2.symm) inside)
  | quits waiting idle => cases sends
  | @leaves act u roomId point room set t waiting member found listed round =>
      cases round with
      | done same all => cases sends
      | broken changed => cases sends
      | tell same remains fresh entry =>
          cases inv.orderly.leaves_recv allowed fires waiting rfl
          cases sends
          obtain ⟨other, inside⟩ := Finset.mem_erase.mp remains
          rw [← members_of_rooms found] at inside listed
          have past := congrArg Phase.past? waiting
          exact inv.hears_left past inside entry rfl other fun registered =>
            (inv.orderly.views.agrees past inside registered other.symm
              (by simp [waiting, Phase.Owes])).mpr listed
  | @tells j pick u room it set t waiting found round =>
      cases round with
      | done same all => cases sends
      | broken changed => cases sends
      | tell same remains fresh entry =>
          cases sends
          have point := inv.orderly.mail.rooms.point j
          rw [waiting] at point
          obtain ⟨-, outside, -, set', found', current⟩ := point
          cases found.symm.trans found'
          rw [← members_of_rooms found] at remains
          have other : _ ≠ u := fun here => outside room (here ▸ remains)
          exact inv.hears_left (congrArg Phase.past? waiting) remains entry rfl other
            (inv.orderly.leaving j u j room it _ _ waiting (fresh current.2.symm) remains)

theorem init (k : ConnId) : Heard k World.empty where
  orderly := .init
  nulFree j u past := by cases past
  asked u roomId room waiting := by cases waiting
  member u roomId point room waiting := by cases waiting
  heard r inside := absurd inside List.not_mem_nil
  grown := .nil
  clean r inside := absurd inside List.not_mem_nil
  unnamed u past := by cases past

theorem environment (inv : Heard k w) (orderly : OrderlyRooms w') (env : Environment w w') :
    Heard k w' := by
  have mail : w'.mailTo k = w.mailTo k := by rw [World.mailTo, env.log, World.mailTo]
  have sent : ∀ {room}, SentRoomOk w k room → SentRoomOk w' k room := by
    rintro room ⟨peers, inside⟩
    exact ⟨peers, env.log.symm ▸ inside⟩
  have running : ∀ {u roomId point}, w'.phase k = .running u roomId point →
      w.phase k = .running u roomId point := by
    intro u roomId point waiting
    rcases env.conns k with ⟨same, -⟩ | ⟨-, hello, -⟩
    · exact same.symm.trans waiting
    · cases hello.symm.trans waiting
  have past : ∀ {j u}, (w'.phase j).past? = some u → (w.phase j).past? = some u := by
    intro j u past
    rcases env.conns j with ⟨same, -⟩ | ⟨-, hello, -⟩
    · exact same ▸ past
    · rw [hello] at past
      cases past
  refine ⟨orderly, fun j u h => inv.nulFree j u (past h), ?_, ?_, ?_, ?_, ?_, ?_⟩
  · intro u roomId room waiting
    exact sent (inv.asked u roomId room (running waiting))
  · intro u roomId point room waiting found
    rw [env.server] at found
    exact sent (inv.member u roomId point room (running waiting) found)
  · rw [mail]
    intro r inside ofRoom
    obtain ⟨room, before⟩ := inv.heard r inside ofRoom
    exact ⟨room, sent before⟩
  · rw [mail]
    exact inv.grown
  · rw [mail]
    exact inv.clean
  · rw [mail]
    exact fun u h => inv.unnamed u (past h)

/-- The handler of `k` is past `hello_peer` for the uid that its mail does not name. -/
theorem unnamed_turn (inv : Heard k w) {t : Turn} (fires : Fires w act t)
    (past : ((w.apply act.conn t).phase k).past? = some u) : ∀ r ∈ w.mailTo k, u ∉ r.names := by
  by_cases self : k = act.conn
  · subst self
    rw [World.apply_phase_self] at past
    rcases fires.past past with before | ⟨pick, -, waiting, -⟩
    · exact inv.unnamed u before
    · intro r inside named
      obtain ⟨room, sent⟩ := inv.heard r inside (Reply.ofRoom_of_names named)
      have greets := (inv.orderly.mail.greeted _ room sent).1
      rw [waiting] at greets
      cases greets
  · rw [World.apply_phase_of_ne _ _ _ self] at past
    exact inv.unnamed u past

/-- Who registers, or is told something by this very turn, is not named by it. -/
theorem unnamed_now {t : Turn} (fires : Fires w act t) {r : Reply} (hears : Hears k w r)
    (sends : ∃ srv phase, t = .send srv k r phase)
    (past : ((w.apply act.conn t).phase k).past? = some u) : u ∉ r.names := by
  intro named
  have apart := (hears.names u named).2
  obtain ⟨srv, phase, rfl⟩ := sends
  by_cases self : k = act.conn
  · subst self
    rw [World.apply_phase_self] at past
    rcases fires.past past with before | ⟨pick, -, -, other⟩
    · exact apart before
    · cases other
  · rw [World.apply_phase_of_ne _ _ _ self] at past
    exact apart past

/-- A client that is in a room was sent the list of that room. -/
theorem member_turn (inv : Heard k w) {t : Turn} {own : Option Uid} (fires : Fires w act t)
    (turn : RoomStep w act own t) {roomId : Option RoomId} {point : LoopPoint}
    (running : (w.apply act.conn t).phase k = .running u roomId point)
    (found : t.server.peers u = some ⟨k, some room⟩) : SentRoomOk w k room := by
  generalize made : (⟨k, some room⟩ : Peer) = peer at found
  cases fires.entry found with
  | kept was =>
      subst made
      by_cases self : k = act.conn
      · subst self
        rw [World.apply_phase_self] at running
        have past := (inv.orderly.mail.rooms.owner u _ was).1
        rcases turn.talked running with hello | ⟨v, ack⟩ | ⟨v, r, p, waiting⟩
        · rw [hello] at past
          cases past
        · rw [ack] at past
          cases past
        · rw [waiting] at past
          cases past
          exact inv.member u r p room waiting was
      · rw [World.apply_phase_of_ne _ _ _ self] at running
        exact inv.member u roomId point room running was
  | registered waiting => cases made
  | @linked j pick v roomId' callee old resumed waiting either was =>
      have standing := inv.orderly.views.tables.standing j
      rw [waiting] at standing
      obtain ⟨status, -, -, impossible⟩ := standing
      exact impossible.elim
  | @entered roomId' room' old waiting was =>
      cases made
      have past := (inv.orderly.mail.rooms.owner u old was).1
      have self : old.ws = act.conn :=
        inv.orderly.mail.handlers.unique _ _ u past (congrArg Phase.past? waiting)
      rw [← self] at waiting
      exact inv.asked u roomId' _ waiting

/-- A handler that waits in the `ROOM` branch has sent the list. -/
theorem asked_turn (inv : Heard k w) {t : Turn} {own : Option Uid} (turn : RoomStep w act own t)
    {roomId : Option RoomId} (waiting : t.phase = .running u roomId (.roomOk room)) :
    SentRoomOk (w.apply act.conn t) act.conn room := by
  cases turn with
  | still server silent before after =>
      rcases after with ⟨past, -⟩ | ⟨v, r, r', p, p', -, running, plain⟩
      · rw [waiting] at past
        cases past
      · cases waiting.symm.trans running
        cases plain
  | @lists j msg order pick v roomId' room' srv before idle nonempty notSession created nodup
      lists =>
      cases waiting
      have opened := inv.orderly.views.tables.usable j (Or.inr (Or.inr ⟨_, _, _, before⟩))
      refine ⟨order, ?_⟩
      rw [World.apply_log]
      simp [World.delivered, opened, Act.conn]
  | enters before idle nonempty notSession found round => cases round <;> cases waiting
  | joins before found round => cases round <;> cases waiting
  | leaves before member found listed round => cases round <;> cases waiting
  | tells before found round => cases round <;> cases waiting
  | _ => cases waiting

theorem step (inv : Heard k w) (allowed : Orderly w act) (uids : Signalling.nulFree w act = true)
    (notSelf : NotSelf k w act) (h : w.step act = some w') : Heard k w' := by
  have orderly := inv.orderly.step allowed h
  have clean : ∀ j u, (w'.phase j).past? = some u → '\x00' ∉ u := by
    intro j u past
    rcases past_of_step h past with before | ⟨pick, rfl, waiting, -⟩
    · exact inv.nulFree j u before
    · simpa [Signalling.nulFree, waiting] using uids
  rcases sequential_cases inv.orderly.mail.rooms.serial allowed.sequential h with
    env | ⟨t, fires, rfl, others⟩
  · exact inv.environment orderly env
  · obtain ⟨own, turn⟩ :=
      inv.orderly.views.tables.roomStep (inv.orderly.roomClients allowed).2 fires
    have asked : ∀ u roomId room, (w.apply act.conn t).phase k = .running u roomId (.roomOk room) →
        SentRoomOk (w.apply act.conn t) k room := by
      intro u roomId room waiting
      by_cases self : k = act.conn
      · subst self
        rw [World.apply_phase_self] at waiting
        exact inv.asked_turn turn waiting
      · have idle := others k self
        rw [World.apply_phase_of_ne _ _ _ self] at waiting
        rw [waiting] at idle
        cases idle
    have member : ∀ u roomId point room, (w.apply act.conn t).phase k = .running u roomId point →
        (w.apply act.conn t).server.peers u = some ⟨k, some room⟩ →
        SentRoomOk (w.apply act.conn t) k room := by
      intro u roomId point room running found
      rw [World.apply_server] at found
      exact (inv.member_turn fires turn running found).apply _ _
    have heard : ∀ r ∈ w.mailTo k, r.ofRoom = true →
        ∃ room, SentRoomOk (w.apply act.conn t) k room := by
      intro r inside ofRoom
      obtain ⟨room, before⟩ := inv.heard r inside ofRoom
      exact ⟨room, before.apply _ _⟩
    rcases World.mailTo_apply w act.conn k t with silent | ⟨srv, reply, phase, sends, mail⟩
    · refine ⟨orderly, clean, asked, member, ?_, ?_, ?_, ?_⟩
      · rw [silent]
        exact heard
      · rw [silent]
        exact inv.grown
      · rw [silent]
        exact inv.clean
      · rw [silent]
        exact fun u past => inv.unnamed_turn fires past
    · have hears : Hears k w reply := by
        subst sends
        exact inv.hears allowed notSelf fires
      refine ⟨orderly, clean, asked, member, ?_, ?_, ?_, ?_⟩
      · intro r inside ofRoom
        rw [mail] at inside
        rcases List.mem_append.mp inside with before | now
        · exact heard r before ofRoom
        · cases List.mem_singleton.mp now
          rcases hears.heard ofRoom with ⟨room, before⟩ | ⟨room, peers, rfl⟩
          · exact ⟨room, before.apply _ _⟩
          · refine ⟨room, peers, World.mem_mailTo.mp ?_⟩
            rw [mail]
            exact List.mem_append_right _ now
      · rw [mail]
        exact .snoc inv.grown hears.fits
      · intro r inside p named
        rw [mail] at inside
        rcases List.mem_append.mp inside with before | now
        · exact inv.clean r before p named
        · cases List.mem_singleton.mp now
          exact (hears.names p named).1
      · intro u past r inside
        rw [mail] at inside
        rcases List.mem_append.mp inside with before | now
        · exact inv.unnamed_turn fires past r before
        · cases List.mem_singleton.mp now
          exact unnamed_now fires hears ⟨srv, phase, sends⟩ past

end Heard

end GstWebrtc.Signalling
