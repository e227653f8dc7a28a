import GstWebrtc.Multiparty.OfferAnswer

/-!
# The mesh of a room

When each uid is used by one connection no text between two clients that stay is
lost or doubled: what one has sent to the other is in its outbox or on the
other's connection.  So when nothing is under way any two of them have
exchanged one offer and one answer.
-/

namespace GstWebrtc.Multiparty.RoomClient

open GstWebrtc.Base GstWebrtc.Base.PyText GstWebrtc.Signalling

/-! ## The texts of messages -/

theorem getAnswerSdp_injective {u v offer offer' : Text}
    (h : getAnswerSdp offer u = getAnswerSdp offer' v) : u = v := by
  rw [getAnswerSdp_eq, getAnswerSdp_eq] at h
  have tails := (List.cons.inj (List.append_cancel_left h)).2
  exact List.append_cancel_right tails

theorem getAnswerSdp_ne_room (offer v : Text) (setup : Setup) :
    getAnswerSdp offer v ≠ "ROOM ".toList ++ setup.roomId := by
  intro same
  have fifth := congrArg (fun text => text[4]?) same
  rw [getAnswerSdp_eq] at fifth
  exact absurd fifth (by simp)

namespace Addressed

variable {u v : Uid} {text text' payload payload' : Text}

/-- A message has one recipient and one payload. -/
theorem unique (first : Addressed u text payload) (second : Addressed v text payload') :
    u = v ∧ payload = payload' := by
  cases first with
  | offer =>
      generalize same : getOfferSdp u = text at second
      cases second with
      | offer => exact ⟨getOfferSdp_injective same, rfl⟩
      | answer => exact absurd same (getOfferSdp_ne_answer _ _ _)
  | answer =>
      generalize same : getAnswerSdp _ u = text at second
      cases second with
      | offer => exact absurd same.symm (getOfferSdp_ne_answer _ _ _)
      | answer => exact ⟨getAnswerSdp_injective same, rfl⟩

theorem same_text (first : Addressed u text payload) (second : Addressed u text' payload) :
    text = text' := by
  generalize same : payload = payload' at second
  cases first with
  | offer =>
      cases second with
      | offer => rfl
      | answer => exact absurd same (by decide)
  | answer =>
      cases second with
      | offer => exact absurd same (by decide)
      | answer => rfl

theorem starts (addressed : Addressed u text payload) : "ROOM_PEER_MSG ".toList <+: text := by
  cases addressed with
  | offer => exact ⟨u ++ ' ' :: initialSdp, (List.append_assoc ..).symm⟩
  | answer => exact ⟨u ++ ' ' :: replySdp, (List.append_assoc ..).symm⟩

theorem ne_room (addressed : Addressed u text payload) (setup : Setup) :
    text ≠ "ROOM ".toList ++ setup.roomId := by
  cases addressed with
  | offer => exact getOfferSdp_ne_room u setup
  | answer => exact getAnswerSdp_ne_room _ u setup

theorem ne_hello (addressed : Addressed u text payload) (v : Uid) :
    text ≠ "HELLO ".toList ++ v := by
  rintro rfl
  exact absurd addressed.starts (by simp)

end Addressed

/-- What a round sends are offers and answers. -/
theorem sent_of_round {sentOffers sentOffers' : Finset Text} {msg : Text} {sent : List Text}
    (goesOn : round sentOffers msg = .continue sentOffers' sent) :
    ∀ text ∈ sent, ∃ v payload, Addressed v text payload := by
  intro text inside
  unfold round at goesOn
  split at goesOn
  · cases goesOn
  split at goesOn
  · split at goesOn
    · cases goesOn
    · cases goesOn
      obtain ⟨v, -, rfl⟩ := List.mem_map.mp inside
      exact ⟨v, _, .offer⟩
  split at goesOn
  · split at goesOn
    · split at goesOn
      · cases goesOn
      · cases goesOn
        cases inside
    split at goesOn
    · split at goesOn
      · cases goesOn
      · cases goesOn
        cases inside
    split at goesOn
    · split at goesOn
      · cases goesOn
      · split at goesOn
        · cases goesOn
          cases inside
        · cases goesOn
          cases List.mem_singleton.mp inside
          exact ⟨_, _, .answer⟩
    · cases goesOn
  · cases goesOn

/-- The command is sent for the first text, and for no other. -/
theorem asks_once {setup : Setup} {stage : Stage} (running : stage ≠ .ended) (msg : Text) :
    (receive setup stage msg).1 ≠ .greeting ∧
      ("ROOM ".toList ++ setup.roomId ∈ (receive setup stage msg).2 →
        stage = .greeting ∧ (receive setup stage msg).2 = ["ROOM ".toList ++ setup.roomId]) := by
  cases stage with
  | greeting =>
      rw [receive]
      split
      · exact ⟨by simp, fun _ => ⟨rfl, rfl⟩⟩
      · exact ⟨by simp, fun inside => absurd inside List.not_mem_nil⟩
  | loop sentOffers =>
      rw [receive]
      split
      · next sentOffers' sent goesOn =>
          refine ⟨by simp, fun inside => ?_⟩
          obtain ⟨v, payload, addressed⟩ := sent_of_round goesOn _ inside
          exact absurd rfl (addressed.ne_room setup)
      · exact ⟨by simp, fun inside => absurd inside List.not_mem_nil⟩
      · exact ⟨by simp, fun inside => absurd inside List.not_mem_nil⟩
  | ended => exact absurd rfl running

/-! ## Clients that stay -/

/-- The process has not ended, and its handler still reads. -/
structure Alive (s : Party) (k : ConnId) : Prop where
  process : s.stage k ≠ .ended
  handler : (s.world.phase k).ended = false

/-- The texts that process `k` has sent since its `HELLO`. -/
def Party.sent (s : Party) (k : ConnId) : List Text := (s.history k).flatMap Prod.snd

/-- Whom a reply shows to be in the room. -/
def insiders : Reply → List Uid
  | .roomOk _ peers => peers
  | .peerMsg uid _ => [uid]
  | _ => []

section Steps

variable {setup : Setup} {s s' : Party} {act : Act} {move : Move} {k c : ConnId} {text : Text}

/-- What a step of the server means for the outboxes. -/
inductive Posts (setup : Setup) (s s' : Party) : Act → Prop where
  | handed {j : ConnId} {msg : Text} {order : List Uid} {pick : Option Uid} {rest : List Text}
      (first : s.outbox j = msg :: rest)
      (popped : s'.outbox = Function.update s.outbox j rest) :
      Posts setup s s' (.recv j msg order pick)
  | greets {j : ConnId}
      (greeted : s'.outbox =
        Function.update s.outbox j (s.outbox j ++ ["HELLO ".toList ++ setup.peerId j])) :
      Posts setup s s' (.connect j)
  | other {act : Act} (same : s'.outbox = s.outbox)
      (waits : ∀ k msg order pick, act ≠ .recv k msg order pick) : Posts setup s s' act

theorem posts_of_serve {world : World} {next : Party} (served : s.serve setup act = some next) :
    Posts setup s { next with world := world } act := by
  cases act with
  | connect k =>
      cases served
      exact .greets rfl
  | recv k msg order pick =>
      simp only [Party.serve] at served
      split at served
      · cases served
      · next text rest first =>
          split at served
          · next same =>
              cases served
              subst same
              exact .handed first rfl
          · cases served
  | _ =>
      cases served
      exact .other rfl (by simp)

theorem Posts.count_le (posts : Posts setup s s' act)
    (apart : text ≠ "HELLO ".toList ++ setup.peerId k) :
    (s'.outbox k).count text ≤ (s.outbox k).count text := by
  cases posts with
  | @handed j msg order pick rest first popped =>
      by_cases self : k = j
      · subst self
        rw [popped, Function.update_self, first]
        exact List.count_le_count_cons
      · rw [popped, Function.update_of_ne self]
  | @greets j greeted =>
      by_cases self : k = j
      · subst self
        rw [greeted, Function.update_self, List.count_append, List.count_cons_of_ne apart.symm]
        exact Nat.le_refl _
      · rw [greeted, Function.update_of_ne self]
  | other same waits => rw [same]

/-- A step of the server, with the processes' part in it. -/
theorem server_step (h : s.step setup (.server act) = some s') :
    s.world.step act = some s'.world ∧ Party.Served setup s s' act ∧ Posts setup s s' act := by
  obtain ⟨world, fires, rest⟩ := Option.bind_eq_some_iff.mp h
  obtain ⟨next, serves, rfl⟩ := Option.map_eq_some_iff.mp rest
  exact ⟨fires, Party.serve_served serves, posts_of_serve serves⟩

theorem take_step (h : s.step setup (.take k) = some s') :
    s.stage k ≠ .ended ∧ ∃ reply, (s.world.mailTo k)[(s.history k).length]? = some reply ∧
      s' = s.taken setup k reply := by
  simp only [Party.step] at h
  split at h
  · cases h
  · cases h
  · next reply unread alive =>
      cases h
      exact ⟨alive, reply, unread, rfl⟩

/-- Nobody comes back. -/
theorem Alive.before (alive : Alive s' c) (h : s.step setup move = some s') : Alive s c := by
  cases move with
  | server act =>
      obtain ⟨fires, served, -⟩ := server_step h
      refine ⟨?_, ?_⟩
      · rcases served.stage c with same | ended
        · rw [← same]
          exact alive.process
        · exact absurd ended alive.process
      · by_contra gone
        have ended := Bool.eq_true_of_not_eq_false gone
        have still : (s'.world.phase c).ended = true := by
          rcases phase_step fires c with ⟨same, -⟩ | ⟨-, absent, -⟩ | ⟨-, -, advances⟩
          · rw [same]
            exact ended
          · rw [absent] at ended
            cases ended
          · exact advances.ended ended
        exact absurd (still.symm.trans alive.handler) nofun
  | take k =>
      obtain ⟨running, reply, -, rfl⟩ := take_step h
      refine ⟨?_, alive.handler⟩
      by_cases self : c = k
      · subst self
        exact running
      · have process := alive.process
        simp only [Party.taken, Function.update_of_ne self] at process
        exact process

end Steps

/-! ## The invariant -/

/-- The `ROOM` command of a process is sent once, and answered after it is handed over. -/
structure Asking (setup : Setup) (s : Party) (k : ConnId) : Prop where
  once : (s.outbox k).count ("ROOM ".toList ++ setup.roomId) ≤ 1
  unanswered : "ROOM ".toList ++ setup.roomId ∈ s.outbox k →
    ∀ room, ¬ SentRoomOk s.world k room
  unasked : s.stage k = .greeting → "ROOM ".toList ++ setup.roomId ∉ s.outbox k ∧
    ∀ room, ¬ SentRoomOk s.world k room

/-- What process `k` has sent to that at `c` is in its outbox or on the other's connection. -/
def Carried (setup : Setup) (s : Party) (k c : ConnId) : Prop :=
  ∀ text payload, Addressed (setup.peerId c) text payload → (s.sent k).count text =
    (s.outbox k).count text + (s.world.mailTo c).count (.peerMsg (setup.peerId k) payload)

structure Mesh (setup : Setup) (s : Party) : Prop where
  fluent : Fluent setup s
  asking : ∀ k, Asking setup s k
  insiders : ∀ k c, ∀ r ∈ s.world.mailTo k, setup.peerId c ∈ insiders r →
    ∃ room, SentRoomOk s.world c room
  carried : ∀ k c, k ≠ c → Alive s k → Alive s c → Carried setup s k c

theorem ofRoom_of_insiders {r : Reply} {v : Uid} (h : v ∈ insiders r) : r.ofRoom = true := by
  cases r with
  | roomOk room peers => rfl
  | peerMsg uid payload => rfl
  | _ => exact absurd h List.not_mem_nil

namespace Mesh

variable {setup : Setup} {s s' : Party} {act : Act} {move : Move} {k c : ConnId}
  {text payload : Text} {room : RoomId} {w w' : World}

theorem init (setup : Setup) : Mesh setup Party.empty where
  fluent := .init setup
  asking _ := ⟨Nat.zero_le _, fun inside => absurd inside List.not_mem_nil,
    fun _ => ⟨List.not_mem_nil, fun _ sent => absurd sent.choose_spec List.not_mem_nil⟩⟩
  insiders _ _ _ told := absurd told List.not_mem_nil
  carried _ _ _ _ _ _ _ _ := rfl

/-- With one connection for each uid nobody asks under a uid that was listed. -/
theorem fresh (inv : Mesh setup s) (served : Party.Served setup s s' act) :
    Fresh setup s.world act := by
  rintro k order pick rfl j roomId point running listed
  obtain ⟨room, peers, told, inside⟩ := roomOk_of_listed listed
  obtain ⟨room', sent⟩ := inv.insiders j k _ told inside
  exact (inv.asking k).unanswered (served.handed k _ order pick rfl) room' sent

theorem sent_kept (h : w.step act = some w') (sent : SentRoomOk w k room) :
    SentRoomOk w' k room := by
  obtain ⟨peers, inside⟩ := sent
  exact ⟨peers, World.mem_mailTo.mp (mail_kept h (World.mem_mailTo.mpr inside))⟩

/-- `ROOM_OK` is sent when the command is handed over. -/
theorem sent_step (paired : Paired setup w) (spoken : Spoken setup w act)
    (h : w.step act = some w') (sent : SentRoomOk w' k room) :
    SentRoomOk w k room ∨
      ∃ order pick, act = .recv k ("ROOM ".toList ++ setup.roomId) order pick := by
  rcases step_cases h with ⟨j, -, -, rfl⟩ | ⟨j, -, -, rfl⟩ | ⟨t, fires, rfl⟩
  · exact Or.inl sent
  · exact Or.inl sent
  · refine (SentRoomOk.of_apply fires sent).imp_right ?_
    rintro ⟨rfl, -, uid, waiting⟩
    obtain ⟨⟨msg, order, pick, word, acts, command, fields, valid⟩, -, -⟩ :=
      asks_of_phase fires waiting
    have same := ((spoken.letter act.conn msg order pick acts).room_fields (paired.heard _) command
      fields valid).1
    subst same
    exact ⟨order, pick, acts⟩

/-- A client that was sent `ROOM_OK` and stays is served. -/
theorem running_of_sent (paired : Paired setup s.world) (alive : Alive s k)
    (sent : SentRoomOk s.world k room) :
    ∃ roomId point, s.world.phase k = .running (setup.peerId k) roomId point := by
  have greeted := ((paired.heard k).orderly.mail.greeted k room sent).1
  have reads := alive.handler
  cases phase : s.world.phase k with
  | running u roomId point =>
      have own : u = setup.peerId k := paired.own k u (congrArg Phase.uid? phase)
      exact ⟨roomId, point, own ▸ rfl⟩
  | leaving u point =>
      rw [phase] at reads
      cases reads
  | done u =>
      rw [phase] at reads
      cases reads
  | _ =>
      rw [phase] at greeted
      cases greeted

/-- What a process sends to a uid it sends to one that it has seen in the room. -/
theorem insider_of_sent (inv : Mesh setup s) (addressed : Addressed (setup.peerId c) text payload)
    (sent : text ∈ s.sent k) :
    ∃ reply ∈ s.world.mailTo k, setup.peerId c ∈ RoomClient.insiders reply := by
  obtain ⟨⟨reply, texts⟩, taken, inside⟩ := List.mem_flatMap.mp sent
  refine ⟨reply, (inv.fluent.read k).subset (List.mem_map.mpr ⟨_, taken, rfl⟩), ?_⟩
  cases inv.fluent.proper k _ taken with
  | hello => exact absurd (List.mem_singleton.mp inside) (addressed.ne_room setup)
  | @listed room peers nodup =>
      obtain ⟨v, listed, rfl⟩ := List.mem_map.mp inside
      rw [(addressed.unique .offer).1]
      exact listed
  | @offer uid =>
      cases List.mem_singleton.mp inside
      rw [(addressed.unique .answer).1]
      exact List.mem_cons_self
  | answer => cases inside
  | plain notListed notMessage => cases inside

/-- A message between two clients that stay is put on the connection of its recipient. -/
theorem relayed (inv : Mesh setup s) (other : k ≠ c) (aliveK : Alive s k) (aliveC : Alive s c)
    (addressed : Addressed (setup.peerId c) text payload) (inside : text ∈ s.outbox k)
    {order : List Uid} {pick : Option Uid} (quiet : s.world.Quiet)
    (fires : s.world.step (.recv k text order pick) = some w') :
    w'.log = s.world.log ++ [(c, .peerMsg (setup.peerId k) payload)] := by
  have paired := inv.fluent.paired
  have sent : text ∈ s.sent k := by
    rw [← List.count_pos_iff, inv.carried k c other aliveK aliveC text payload addressed]
    exact Nat.add_pos_left (List.count_pos_iff.mpr inside) _
  obtain ⟨reply, told, seen⟩ := inv.insider_of_sent addressed sent
  obtain ⟨roomC, sentC⟩ := inv.insiders k c reply told seen
  obtain ⟨roomK, sentK⟩ := (paired.heard k).heard reply told (ofRoom_of_insiders seen)
  have runningK := running_of_sent paired aliveK sentK
  have runningC := running_of_sent paired aliveC sentC
  -- how far the two processes are with their mail does not matter
  have presentK : Present setup { s with stage := fun _ => .loop ∅ } k :=
    ⟨⟨∅, rfl⟩, runningK, roomK, sentK⟩
  have presentC : Present setup { s with stage := fun _ => .loop ∅ } c :=
    ⟨⟨∅, rfl⟩, runningC, roomC, sentC⟩
  exact presentK.relayed presentC paired quiet addressed fires

/-- Only a message that is handed over is put on a connection as one. -/
theorem addressed_of_fires (paired : Paired setup w) (spoken : Spoken setup w act)
    {srv : WebRTCSimpleServer} {u : Uid} {phase : Phase}
    (fires : Fires w act (.send srv c (.peerMsg u payload) phase)) :
    ∃ k msg order pick, act = .recv k msg order pick ∧ u = setup.peerId k ∧
      Addressed (setup.peerId c) msg payload ∧ ∃ room, SentRoomOk w k room := by
  rcases fires.sends_message with hello | ⟨v, joined | left⟩ |
    ⟨k, uid, roomId, roomId', order, pick, msg, next, rfl, waiting, rfl, handled⟩
  · cases hello
  · cases joined
  · cases left
  · have sender : uid = setup.peerId k := paired.own k uid (congrArg Phase.uid? waiting)
    have letter := spoken.letter k msg order pick rfl
    have heard := paired.heard k
    cases handled with
    | @peerMsg peer room word v _ target current registered member command fields found =>
        have past := (heard.orderly.mail.rooms.owner v _ found).1
        have recipient : v = setup.peerId target.ws := paired.own _ v (Phase.uid_of_past past)
        subst recipient
        obtain ⟨⟨r, told, named⟩, -⟩ := letter.message_fields heard command fields
        refine ⟨k, msg, order, pick, rfl, sender, ?_,
          heard.heard r told (Reply.ofRoom_of_names named)⟩
        cases letter with
        | hello => exact absurd command (by simp)
        | room => exact absurd command (by simp)
        | offer listed =>
            rw [getOfferSdp_eq, messageText_fields (clean_of_listed heard listed).1 initialSdp_head]
              at fields
            cases fields
            exact .offer
        | answer told named unlisted =>
            rw [getAnswerSdp_eq, messageText_fields (heard.clean _ told _ named).1 replySdp_head]
              at fields
            cases fields
            exact .answer

theorem insiders_step (inv : Mesh setup s) (sole : Function.Injective setup.peerId)
    (spoken : Spoken setup s.world act) (after : Paired setup w')
    (h : s.world.step act = some w') {r : Reply} (told : r ∈ w'.mailTo k)
    (seen : setup.peerId c ∈ RoomClient.insiders r) : ∃ room, SentRoomOk w' c room := by
  have earlier : r ∈ s.world.mailTo k → ∃ room, SentRoomOk w' c room := fun before =>
    (inv.insiders k c r before seen).imp fun _ => sent_kept h
  rcases mail_step h k with same | ⟨srv, reply, phase, fires, rfl, grown⟩
  · exact earlier (same ▸ told)
  rw [grown, List.mem_append, List.mem_singleton] at told
  rcases told with before | rfl
  · exact earlier before
  cases r with
  | roomOk room peers =>
      -- the list names the members of the room
      have opened : s.world.socket k ≠ .closed := by
        intro shut
        rw [World.mailTo_of_log (s.world.apply_log act.conn _), World.delivered, if_pos shut] at grown
        simp at grown
      have sent : (k, Reply.roomOk room peers) ∈
          s.world.delivered (.send srv k (.roomOk room peers) phase) := by
        simp [World.delivered, opened]
      obtain ⟨rfl, -, u, waiting⟩ := fires.roomOk sent
      have orderly := (after.heard act.conn).orderly
      have list := orderly.listing act.conn u _ room ((World.apply_phase_self ..).trans waiting)
      have inside : Reply.roomOk room peers ∈
          (s.world.apply act.conn (.send srv act.conn (.roomOk room peers) phase)).mailTo
            act.conn := by
        rw [grown]
        exact List.mem_append_right _ List.mem_cons_self
      rw [listed_of_roomOk (after.heard act.conn) inside] at list
      have member := list ▸ List.mem_toFinset.mpr seen
      obtain ⟨-, -, j, roomId, point, found, running⟩ :=
        orderly.views.tables.member room _ member
      have own : setup.peerId c = setup.peerId j := after.own j _ (congrArg Phase.uid? running)
      cases sole own
      exact ⟨room, after.sent_of_member member found⟩
  | peerMsg u payload =>
      obtain ⟨j, msg, order, pick, rfl, sender, -, room, sent⟩ :=
        addressed_of_fires inv.fluent.paired spoken fires
      have own : setup.peerId c = setup.peerId j := (List.mem_singleton.mp seen).trans sender
      cases sole own
      exact ⟨room, sent_kept h sent⟩
  | _ => exact absurd seen List.not_mem_nil

/-- A text that is handed over is put on its recipient's connection, and nothing else is. -/
theorem carried_step (inv : Mesh setup s) (sole : Function.Injective setup.peerId)
    (spoken : Spoken setup s.world act) (sequential : Sequential s.world act)
    (h : s.world.step act = some s'.world) (served : Party.Served setup s s' act)
    (posts : Posts setup s s' act) (other : k ≠ c) (aliveK : Alive s k) (aliveC : Alive s c) :
    Carried setup s' k c := by
  intro text payload addressed
  have before := inv.carried k c other aliveK aliveC text payload addressed
  rw [Party.sent, served.history, ← Party.sent, before]
  by_cases now : ∃ order pick, act = .recv k text order pick
  · obtain ⟨order, pick, rfl⟩ := now
    have log := inv.relayed other aliveK aliveC addressed (served.handed k text order pick rfl)
      sequential h
    have mail : s'.world.mailTo c =
        s.world.mailTo c ++ [.peerMsg (setup.peerId k) payload] := by
      rw [World.mailTo_of_log log]
      simp
    cases posts with
    | handed first popped =>
        rw [mail, popped, Function.update_self, first, List.count_cons_self, List.count_append,
          List.count_singleton_self]
        omega
    | other same waits => exact absurd rfl (waits k text order pick)
  · have outbox : (s'.outbox k).count text = (s.outbox k).count text := by
      cases posts with
      | @handed j msg order pick rest first popped =>
          by_cases self : k = j
          · subst self
            have apart : msg ≠ text := by
              rintro rfl
              exact now ⟨order, pick, rfl⟩
            rw [popped, Function.update_self, first, List.count_cons_of_ne apart]
          · rw [popped, Function.update_of_ne self]
      | @greets j greeted =>
          by_cases self : k = j
          · subst self
            have apart := (addressed.ne_hello (setup.peerId k)).symm
            rw [greeted, Function.update_self, List.count_append, List.count_cons_of_ne apart]
            rfl
          · rw [greeted, Function.update_of_ne self]
      | other same waits => rw [same]
    rw [outbox]
    rcases mail_step h c with same | ⟨srv, reply, phase, fires, -, grown⟩
    · rw [same]
    · have apart : reply ≠ .peerMsg (setup.peerId k) payload := by
        rintro rfl
        obtain ⟨j, msg, order, pick, acts, sender, sends, -⟩ :=
          addressed_of_fires inv.fluent.paired spoken fires
        cases sole sender
        exact now ⟨order, pick, addressed.same_text sends ▸ acts⟩
      rw [grown, List.count_append, List.count_cons_of_ne apart]
      rfl

theorem asking_step (inv : Mesh setup s) (spoken : Spoken setup s.world act)
    (h : s.world.step act = some s'.world) (served : Party.Served setup s s' act)
    (posts : Posts setup s s' act) (k : ConnId) : Asking setup s' k := by
  obtain ⟨once, unanswered, unasked⟩ := inv.asking k
  have fewer := posts.count_le (k := k)
    (show "ROOM ".toList ++ setup.roomId ≠ "HELLO ".toList ++ setup.peerId k by simp)
  have earlier (inside : "ROOM ".toList ++ setup.roomId ∈ s'.outbox k) :
      "ROOM ".toList ++ setup.roomId ∈ s.outbox k :=
    List.count_pos_iff.mp (Nat.lt_of_lt_of_le (List.count_pos_iff.mpr inside) fewer)
  refine ⟨fewer.trans once, fun inside room sent => ?_, fun greeting => ?_⟩
  · rcases sent_step inv.fluent.paired spoken h sent with before | ⟨order, pick, rfl⟩
    · exact unanswered (earlier inside) room before
    · cases posts with
      | handed first popped =>
          rw [popped, Function.update_self] at inside
          rw [first, List.count_cons_self] at once
          have again := List.count_pos_iff.mpr inside
          omega
      | other same waits => exact waits k _ order pick rfl
  · obtain ⟨outside, before⟩ : "ROOM ".toList ++ setup.roomId ∉ s.outbox k ∧
        ∀ room, ¬ SentRoomOk s.world k room := by
      rcases served.stage k with same | ended
      · exact unasked (same ▸ greeting)
      · cases ended.symm.trans greeting
    refine ⟨fun inside => outside (earlier inside), fun room sent => ?_⟩
    rcases sent_step inv.fluent.paired spoken h sent with sent | ⟨order, pick, rfl⟩
    · exact before room sent
    · exact outside (served.handed k _ order pick rfl)

theorem serve (inv : Mesh setup s) (sole : Function.Injective setup.peerId)
    (sequential : Sequential s.world act) (h : s.step setup (.server act) = some s') :
    Mesh setup s' := by
  obtain ⟨fires, served, posts⟩ := server_step h
  have spoken := inv.fluent.spoken sequential served
  have fluent := inv.fluent.serve sequential (inv.fresh served) fires served
  exact ⟨fluent, inv.asking_step spoken fires served posts,
    fun k c r told seen => inv.insiders_step sole spoken fluent.paired fires told seen,
    fun k c other aliveK aliveC => inv.carried_step sole spoken sequential fires served posts other
      (aliveK.before h) (aliveC.before h)⟩

theorem take (inv : Mesh setup s) (h : s.step setup (.take k) = some s') : Mesh setup s' := by
  have before : ∀ c, Alive s' c → Alive s c := fun c alive => alive.before h
  obtain ⟨running, reply, unread, rfl⟩ := take_step h
  refine ⟨inv.fluent.take running unread, fun c => ?_, inv.insiders,
    fun i c other aliveI aliveC text payload addressed => ?_⟩
  · by_cases self : c = k
    · subst self
      obtain ⟨once, unanswered, unasked⟩ := inv.asking c
      obtain ⟨started, asks⟩ := asks_once running (reply.text setup.repr)
      by_cases now : "ROOM ".toList ++ setup.roomId ∈
          (receive setup (s.stage c) (reply.text setup.repr)).2
      · obtain ⟨greeting, only⟩ := asks now
        obtain ⟨outside, before⟩ := unasked greeting
        refine ⟨?_, fun _ => before, fun greeting => ?_⟩
        · simp only [Party.taken, Function.update_self]
          rw [only, List.count_append, List.count_eq_zero.mpr outside, List.count_singleton_self]
        · simp only [Party.taken, Function.update_self] at greeting
          exact absurd greeting started
      · refine ⟨?_, fun inside => ?_, fun greeting => ?_⟩
        · simp only [Party.taken, Function.update_self]
          rwa [List.count_append, List.count_eq_zero.mpr now]
        · simp only [Party.taken, Function.update_self] at inside
          exact unanswered ((List.mem_append.mp inside).resolve_right now)
        · simp only [Party.taken, Function.update_self] at greeting
          exact absurd greeting started
    · obtain ⟨once, unanswered, unasked⟩ := inv.asking c
      refine ⟨?_, ?_, ?_⟩
      all_goals simp only [Party.taken, Function.update_of_ne self]
      · exact once
      · exact unanswered
      · exact unasked
  · have balance := inv.carried i c other (before i aliveI) (before c aliveC) text payload addressed
    by_cases self : i = k
    · subst self
      simp only [Party.sent, Party.taken, Function.update_self, List.flatMap_append,
        List.flatMap_singleton, List.count_append] at balance ⊢
      omega
    · simp only [Party.sent, Party.taken, Function.update_of_ne self] at balance ⊢
      exact balance

theorem of_reachable (sole : Function.Injective setup.peerId)
    (run : (party setup).Reachable InOrder s) : Mesh setup s := by
  refine run.invariant (init setup) fun _ move _ inv allowed h => ?_
  cases move with
  | server act => exact inv.serve sole allowed h
  | take k => exact inv.take h

end Mesh

/-! ## When nothing is under way -/

/-- Every text of a client in the room was handed over, and every reply to it was taken. -/
def AtRest (setup : Setup) (s : Party) : Prop :=
  ∀ k, Present setup s k → s.outbox k = [] ∧ s.read k = s.world.mailTo k

/-- Process `i` has made an offer to `j`, which has answered it, and that is all. -/
structure Exchanged (setup : Setup) (s : Party) (i j : ConnId) : Prop where
  offer : (s.sent i).count (getOfferSdp (setup.peerId j)) = 1
  offered : (s.read j).count (.peerMsg (setup.peerId i) initialSdp) = 1
  answer : (s.sent j).count (getAnswerSdp initialSdp (setup.peerId i)) = 1
  answered : (s.read i).count (.peerMsg (setup.peerId j) replySdp) = 1
  noOffer : (s.sent j).count (getOfferSdp (setup.peerId i)) = 0
  noAnswer : (s.sent i).count (getAnswerSdp initialSdp (setup.peerId j)) = 0

/-- The reply is a list with the uid in it. -/
def listsUid (v : Uid) : Reply → Bool
  | .roomOk _ peers => peers.contains v
  | _ => false

section Counts

variable {setup : Setup} {history : List (Reply × List Text)} {s : Party} {i j : ConnId}

/-- An offer is made for each list with the uid in it. -/
theorem count_offers (proper : ∀ entry ∈ history, Proper setup entry) (v : Uid) :
    (history.flatMap Prod.snd).count (getOfferSdp v) =
      (history.map Prod.fst).countP (listsUid v) := by
  induction history with
  | nil => rfl
  | cons entry rest ih =>
      have tail := ih fun later inside => proper later (List.mem_cons_of_mem _ inside)
      have first : entry.2.count (getOfferSdp v) = if listsUid v entry.1 then 1 else 0 := by
        cases proper entry List.mem_cons_self with
        | hello =>
            exact List.count_eq_zero.mpr fun inside =>
              getOfferSdp_ne_room v setup (List.mem_singleton.mp inside)
        | @listed room peers nodup =>
            rw [List.count_map_of_injective _ _ (fun _ _ => getOfferSdp_injective),
              nodup.count, listsUid]
            simp
        | offer =>
            exact List.count_eq_zero.mpr fun inside =>
              getOfferSdp_ne_answer v _ _ (List.mem_singleton.mp inside)
        | answer => rfl
        | @plain reply notListed notMessage =>
            cases reply with
            | roomOk room peers => exact absurd rfl (notListed room peers)
            | _ => rfl
      rw [List.flatMap_cons, List.count_append, first, tail, List.map_cons, List.countP_cons,
        Nat.add_comm]

/-- An answer is made for each offer. -/
theorem count_answers (proper : ∀ entry ∈ history, Proper setup entry) (u : Uid) :
    (history.flatMap Prod.snd).count (getAnswerSdp initialSdp u) =
      (history.map Prod.fst).count (.peerMsg u initialSdp) := by
  induction history with
  | nil => rfl
  | cons entry rest ih =>
      have tail := ih fun later inside => proper later (List.mem_cons_of_mem _ inside)
      have first : entry.2.count (getAnswerSdp initialSdp u) =
          if entry.1 == .peerMsg u initialSdp then 1 else 0 := by
        cases proper entry List.mem_cons_self with
        | hello =>
            exact List.count_eq_zero.mpr fun inside =>
              getAnswerSdp_ne_room _ u setup (List.mem_singleton.mp inside)
        | listed nodup =>
            refine List.count_eq_zero.mpr fun inside => ?_
            obtain ⟨v, -, same⟩ := List.mem_map.mp inside
            exact getOfferSdp_ne_answer v _ _ same
        | @offer v =>
            by_cases same : v = u
            · subst same
              simp
            · have apart : getAnswerSdp initialSdp v ≠ getAnswerSdp initialSdp u :=
                fun equal => same (getAnswerSdp_injective equal)
              rw [List.count_cons_of_ne apart, if_neg (by simpa using same)]
              rfl
        | @answer v =>
            have apart : Reply.peerMsg v replySdp ≠ .peerMsg u initialSdp := fun equal =>
              absurd (Reply.peerMsg.inj equal).2 (by decide)
            rw [if_neg (by simpa using apart)]
            rfl
        | @plain reply notListed notMessage =>
            rw [if_neg (by simpa using notMessage u initialSdp)]
            rfl
      rw [List.flatMap_cons, List.count_append, first, tail, List.map_cons, List.count_cons,
        Nat.add_comm]

/-- One list names whom the client was listed. -/
theorem count_listed {w : World} {k : ConnId} {v : Uid} (heard : Heard k w)
    (listed : v ∈ w.listed k) : (w.mailTo k).countP (listsUid v) = 1 := by
  obtain ⟨room, peers, told, inside⟩ := roomOk_of_listed listed
  obtain ⟨before, after, whole⟩ := List.append_of_mem told
  have others : ∀ r ∈ before ++ after, ¬ listsUid v r = true := by
    intro r within lists
    cases r with
    | roomOk room' peers' => exact listed_once heard whole within
    | _ => cases lists
  have nothing := List.countP_eq_zero.mpr others
  rw [List.countP_append] at nothing
  have lists : listsUid v (.roomOk room peers) = true := List.contains_iff_mem.mpr inside
  rw [whole, List.countP_append, List.countP_cons, if_pos lists]
  omega

/-- No list names anybody else. -/
theorem count_unlisted {w : World} {k : ConnId} {v : Uid} (heard : Heard k w)
    (unlisted : v ∉ w.listed k) : (w.mailTo k).countP (listsUid v) = 0 := by
  refine List.countP_eq_zero.mpr fun r told lists => unlisted ?_
  cases r with
  | roomOk room peers =>
      rw [listed_of_roomOk heard told]
      exact List.contains_iff_mem.mp lists
  | _ => cases lists

theorem Present.alive (present : Present setup s i) : Alive s i := by
  obtain ⟨⟨sentOffers, looping⟩, ⟨roomId, point, running⟩, -⟩ := present
  refine ⟨?_, ?_⟩
  · rw [looping]
    exact nofun
  · rw [running]
    rfl

/-- The newer of two clients has made the offer. -/
theorem Mesh.exchanged (inv : Mesh setup s) (rest : AtRest setup s) (other : i ≠ j)
    (presentI : Present setup s i) (presentJ : Present setup s j)
    (later : Later s.world i (setup.peerId i) j (setup.peerId j)) : Exchanged setup s i j := by
  have paired := inv.fluent.paired
  obtain ⟨emptyI, readI⟩ := rest i presentI
  obtain ⟨emptyJ, readJ⟩ := rest j presentJ
  have sentI := inv.carried i j other presentI.alive presentJ.alive
  have sentJ := inv.carried j i other.symm presentJ.alive presentI.alive
  rw [Carried, emptyI, ← readJ] at sentI
  rw [Carried, emptyJ, ← readI] at sentJ
  have offer : (s.sent i).count (getOfferSdp (setup.peerId j)) = 1 := by
    rw [Party.sent, count_offers (inv.fluent.proper i), ← Party.read, readI]
    exact count_listed (paired.heard i) later.listed
  have noOffer : (s.sent j).count (getOfferSdp (setup.peerId i)) = 0 := by
    rw [Party.sent, count_offers (inv.fluent.proper j), ← Party.read, readJ]
    exact count_unlisted (paired.heard j) later.unlisted
  have answers : ∀ k u, (s.sent k).count (getAnswerSdp initialSdp u) =
      (s.read k).count (.peerMsg u initialSdp) := fun k u =>
    count_answers (inv.fluent.proper k) u
  have offered : (s.read j).count (.peerMsg (setup.peerId i) initialSdp) = 1 := by
    have balance := sentI _ _ .offer
    rw [offer, List.count_nil, Nat.zero_add] at balance
    exact balance.symm
  have unoffered : (s.read i).count (.peerMsg (setup.peerId j) initialSdp) = 0 := by
    have balance := sentJ _ _ .offer
    rw [noOffer, List.count_nil, Nat.zero_add] at balance
    exact balance.symm
  have answer : (s.sent j).count (getAnswerSdp initialSdp (setup.peerId i)) = 1 :=
    (answers j _).trans offered
  refine ⟨offer, offered, answer, ?_, noOffer, (answers i _).trans unoffered⟩
  have balance := sentJ _ _ (@Addressed.answer _ initialSdp)
  rw [answer, List.count_nil, Nat.zero_add] at balance
  exact balance.symm

end Counts

/--
In every run of the server and its room clients in which messages are handled to
completion and each uid is used by one connection, whatever clients leave: once
nothing is under way, of any two clients that are in the room the one that came
later has made one offer to the other, and has one answer to it.
-/
theorem mesh_complete {setup : Setup} {s : Party} (sole : Function.Injective setup.peerId)
    (run : (party setup).Reachable InOrder s) (rest : AtRest setup s) {i j : ConnId} (other : i ≠ j)
    (presentI : Present setup s i) (presentJ : Present setup s j) :
    (Later s.world i (setup.peerId i) j (setup.peerId j) ∧ Exchanged setup s i j) ∨
      (Later s.world j (setup.peerId j) i (setup.peerId i) ∧ Exchanged setup s j i) := by
  have inv := Mesh.of_reachable sole run
  rcases presentI.later other presentJ inv.fluent.paired with later | later
  · exact Or.inl ⟨later, inv.exchanged rest other presentI presentJ later⟩
  · exact Or.inr ⟨later, inv.exchanged rest other.symm presentJ presentI later⟩

theorem clean_replicate (k : ConnId) : Clean (List.replicate (k + 1) 'a') := by
  refine ⟨⟨by simp, fun c inside => ?_⟩, fun inside => ?_⟩
  · rw [List.eq_of_mem_replicate inside]
    decide
  · exact absurd (List.eq_of_mem_replicate inside) (by decide)

/-- Every connection belongs to a client of its own. -/
def letters : Setup where
  repr := id
  peerId k := List.replicate (k + 1) 'a'
  clean := clean_replicate
  roomId := "r".toList
  word := pairXY.word

theorem letters_injective : Function.Injective letters.peerId := fun i j same => by
  have lengths := congrArg List.length same
  simpa [letters] using lengths

/-- A process greets the server and asks for the room, whose members are `order`. -/
def enters (k : ConnId) (order : List Uid) (pick : Option Uid) : List Move :=
  [.server (.connect k), .server (.recv k ("HELLO ".toList ++ letters.peerId k) [] none),
    .server (.resume k false none), .take k,
    .server (.recv k ("ROOM ".toList ++ letters.roomId) order none),
    .server (.resume k false pick)]

/-- `a` is in the room when `aa` joins it and makes its offer. -/
def meeting : List Move :=
  enters 0 [] none ++ [.take 0] ++ enters 1 ["a".toList] (some "a".toList) ++
    [.server (.resume 1 false none), .take 1, .server (.recv 1 (getOfferSdp "a".toList) [] none),
      .server (.resume 1 false none), .take 0, .take 0,
      .server (.recv 0 (getAnswerSdp initialSdp "aa".toList) [] none),
      .server (.resume 0 false none), .take 1]

/-- The client at the connection is in the room and nothing of it is under way. -/
def settled (s : Party) (k : ConnId) : Bool :=
  (match s.stage k, s.world.phase k with
    | .loop _, .running u _ _ => decide (u = letters.peerId k)
    | _, _ => false) &&
  ((s.world.mailTo k).any fun r => match r with | .roomOk _ _ => true | _ => false) &&
  decide (s.outbox k = [] ∧ s.read k = s.world.mailTo k)

theorem present_of_settled {s : Party} {k : ConnId} (ok : settled s k = true) :
    Present letters s k ∧ s.outbox k = [] ∧ s.read k = s.world.mailTo k := by
  simp only [settled, Bool.and_eq_true] at ok
  obtain ⟨⟨runs, answered⟩, done⟩ := ok
  refine ⟨⟨?_, ?_, ?_⟩, of_decide_eq_true done⟩
  · split at runs
    · next looping _ => exact ⟨_, looping⟩
    · cases runs
  · split at runs
    · next running => exact ⟨_, _, of_decide_eq_true runs ▸ running⟩
    · cases runs
  · obtain ⟨r, told, isOk⟩ := List.any_eq_true.mp answered
    cases r with
    | roomOk room peers => exact ⟨room, peers, World.mem_mailTo.mp told⟩
    | _ => cases isOk

theorem not_present_of_absent {n k : Nat} {s : Party} (absent : AbsentFrom n s.world)
    (above : n ≤ k) : ¬ Present letters s k := by
  rintro ⟨-, ⟨roomId, point, running⟩, -⟩
  rw [absent k above] at running
  cases running

/-- A move at one of the first two connections. -/
def ofTwo : Move → Bool
  | .server act => decide (act.conn < 2)
  | .take _ => true

theorem absent_of_two {s : Party}
    (run : (party letters).Reachable (fun _ move => ofTwo move = true) s) :
    AbsentFrom 2 s.world := by
  have start : AbsentFrom 2 (party letters).init.world := fun _ _ => rfl
  refine run.invariant (P := fun t => AbsentFrom 2 t.world) start fun t move next absent two h => ?_
  cases move with
  | server act =>
      obtain ⟨fires, -⟩ := server_step h
      exact absent.step (of_decide_eq_true two) fires
  | take k =>
      obtain ⟨-, reply, -, rfl⟩ := take_step h
      exact absent

/-- Two clients that have met. -/
theorem mesh_complete_pair : ∃ s, Present letters s 0 ∧ Present letters s 1 ∧
    ((Later s.world 0 (letters.peerId 0) 1 (letters.peerId 1) ∧ Exchanged letters s 0 1) ∨
      (Later s.world 1 (letters.peerId 1) 0 (letters.peerId 0) ∧ Exchanged letters s 1 0)) := by
  obtain ⟨s, run, test⟩ := exists_inOrder letters 2 (fun _ move => ofTwo move) meeting
    (fun s => settled s 0 && settled s 1) (by decide)
  obtain ⟨first, second⟩ := Bool.and_eq_true_iff.mp test
  have present0 := present_of_settled first
  have present1 := present_of_settled second
  have absent : AbsentFrom 2 s.world :=
    absent_of_two (run.mono fun _ _ allowed => allowed.1.2)
  have rest : AtRest letters s := by
    intro k present
    cases k with
    | zero => exact present0.2
    | succ k =>
        cases k with
        | zero => exact present1.2
        | succ k => exact absurd present (not_present_of_absent absent (Nat.le_add_left 2 k))
  exact ⟨s, present0.1, present1.1, mesh_complete letters_injective
    (run.mono fun _ _ allowed => allowed.1.1) rest (by decide) present0.1 present1.1⟩

end GstWebrtc.Multiparty.RoomClient
