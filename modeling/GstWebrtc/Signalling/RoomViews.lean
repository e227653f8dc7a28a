import GstWebrtc.Signalling.RoomClients

/-!
# Room views

What a member knows about its room is the fold of the notices that the server
sent it.  The list of `ROOM_OK` is made before the joiner is in the room, and
the broadcasts walk a set that others may change, so overlapping joins and
leaves can lose a notice.  As long as the announcements of a room are not
mixed up, every member knows its room whenever all handlers are idle.
-/

namespace GstWebrtc.Signalling

open GstWebrtc.Base GstWebrtc.Base.PyText WebRTCSimpleServer

namespace World

/-- The notices put on a connection so far. -/
def notices (w : World) (k : ConnId) : List (Notice Uid) :=
  w.log.filterMap fun entry => if entry.1 = k then entry.2.notice else none

/-- The view that a client has of its room. -/
def view (w : World) (k : ConnId) : Finset Uid := Notice.view (w.notices k)

/-- The list of the last `ROOM_OK` on a connection. -/
def listed (w : World) (k : ConnId) : List Uid := Notice.lastRoster (w.notices k)

end World

/-- Every member is registered, and its view is the room without itself. -/
def ViewsAgree (w : World) : Prop :=
  ∀ room u, u ∈ w.server.members room → ∃ peer, w.server.peers u = some peer ∧
    w.view peer.ws = (w.server.members room).erase u

/-- The handler is suspended in the announcement that `u` joins `room`. -/
def Phase.joining (room : RoomId) (u : Uid) : Phase → Bool
  | running v _ (.joined r _) => v = u && r = room
  | _ => false

theorem Phase.running_of_joining {room : RoomId} {u : Uid} {phase : Phase}
    (h : phase.joining room u = true) :
    ∃ roomId it, phase = .running u roomId (.joined room it) := by
  unfold Phase.joining at h
  split at h
  · next v roomId r it =>
      simp only [Bool.and_eq_true, decide_eq_true_eq] at h
      obtain ⟨rfl, rfl⟩ := h
      exact ⟨roomId, it, rfl⟩
  · cases h

/--
When `ROOM_OK` was sent, the room is still what its list says, apart from
members whose own announcement goes on and is ended by the entry.  A
`ROOM_PEER_JOINED` broadcast does not go on over a set that was changed without
changing its size.  A `ROOM_PEER_LEFT` broadcast goes on over an unchanged set
unless everybody was told who was in the room at its beginning or is there now.
-/
def inTurn (w : World) : Act → Bool
  | .resume k false _ =>
      match w.phase k with
      | .running _ _ (.roomOk room) =>
          decide (∀ p ∈ w.listed k, p ∈ w.server.members room) &&
            decide (∀ p ∈ w.server.members room, p ∈ w.listed k ∨
              (w.server.peers p).any fun peer => (w.phase peer.ws).joining room p)
      | .running _ _ (.joined room it) => (w.server.rooms room).all fun set =>
          decide (set.elems.card = it.used → set.changes = it.stamp)
      | .leaving _ (.left _ room it) => (w.server.rooms room).all fun set =>
          decide (it.Current set ∨ it.used ≤ it.seen.card ∨ set.elems ⊆ it.seen)
      | _ => true
  | _ => true

/-! ## Notices and views after a turn -/

/-- The notice that a turn puts on connection `j`. -/
def World.noticeTo (w : World) (t : Turn) (j : ConnId) : Option (Notice Uid) :=
  match t with
  | .send _ target reply _ => if j = target ∧ w.socket target ≠ .closed then reply.notice else none
  | _ => none

section Notices

variable (w : World) (k j : ConnId) (t : Turn)

theorem World.notices_apply :
    (w.apply k t).notices j = w.notices j ++ (w.noticeTo t j).toList := by
  unfold World.notices
  rw [World.apply_log, List.filterMap_append]
  congr 1
  cases t with
  | send srv target reply phase =>
      by_cases shut : w.socket target = .closed
      · simp [World.delivered, World.noticeTo, shut]
      · by_cases here : j = target
        · subst here
          cases notice : reply.notice <;> simp [World.delivered, World.noticeTo, shut, notice]
        · have away : ¬ target = j := fun same => here same.symm
          simp [World.delivered, World.noticeTo, shut, here, away]
  | _ => rfl

variable {w k j t}

theorem World.view_apply_none (h : w.noticeTo t j = none) :
    (w.apply k t).view j = w.view j := by
  rw [World.view, World.notices_apply, h, Option.toList_none, List.append_nil, World.view]

theorem World.view_apply_some {n : Notice Uid} (h : w.noticeTo t j = some n) :
    (w.apply k t).view j = n.apply (w.view j) := by
  rw [World.view, World.notices_apply, h, Option.toList_some, Notice.view_snoc, World.view]

theorem World.listed_apply_none (h : w.noticeTo t j = none) :
    (w.apply k t).listed j = w.listed j := by
  rw [World.listed, World.notices_apply, h, Option.toList_none, List.append_nil, World.listed]

theorem World.listed_apply_roster {members : List Uid}
    (h : w.noticeTo t j = some (.roster members)) : (w.apply k t).listed j = members := by
  rw [World.listed, World.notices_apply, h, Option.toList_some, Notice.lastRoster,
    List.foldl_append]
  rfl

theorem noticeTo_of_silent (silent : t.notice = none) : w.noticeTo t j = none := by
  cases t with
  | send srv target reply phase =>
      simp only [World.noticeTo]
      split
      · exact silent
      · rfl
  | _ => rfl

end Notices

/-! ## Announcements that are still going on -/

/-- The handler's announcement has yet to tell `v` that `u` joined or left `room`. -/
def Phase.Owes (srv : WebRTCSimpleServer) (room : RoomId) (v u : Uid) : Phase → Prop
  | running uid _ (.joined r it) => uid = u ∧ r = room ∧
      ∀ set, srv.rooms r = some set → it.Current set → v ∉ it.seen
  | leaving uid (.left _ r it) => uid = u ∧ r = room ∧ it.seen.card < it.used ∧ v ∉ it.seen
  | _ => False

section Owes

variable {srv srv' : WebRTCSimpleServer} {room : RoomId} {u v : Uid} {phase : Phase}
  {own : Option Uid} {k : ConnId}

theorem Phase.Owes.past (h : phase.Owes srv room v u) : phase.past? = some u := by
  cases phase with
  | running uid roomId point =>
      cases point with
      | joined r it => exact congrArg some h.1
      | _ => exact h.elim
  | leaving uid point =>
      cases point with
      | left ws r it => exact congrArg some h.1
      | _ => exact h.elim
  | _ => exact h.elim

theorem Phase.Owes.announces (h : phase.Owes srv room v u) : phase.announces = true := by
  cases phase with
  | running uid roomId point =>
      cases point with
      | joined r it => rfl
      | _ => exact h.elim
  | leaving uid point =>
      cases point with
      | left ws r it => rfl
      | _ => exact h.elim
  | _ => exact h.elim

/-- A change of the room by another handler cuts an announcement short, and never completes it. -/
theorem Phase.Owes.touched (h : phase.Owes srv room v u) (standing : phase.Standing srv k)
    (touches : Touches own srv srv') : phase.Owes srv' room v u := by
  cases phase with
  | running uid roomId point =>
      cases point with
      | joined r it =>
          obtain ⟨self, same, unseen⟩ := h
          obtain ⟨status, -, -, set, found, -, stamp⟩ := standing
          obtain ⟨set', found', kept | later⟩ := touches.rooms r set found
          · subst kept
            refine ⟨self, same, fun other hother current => ?_⟩
            cases found'.symm.trans hother
            exact unseen set' found current
          · refine ⟨self, same, fun other hother current => ?_⟩
            cases found'.symm.trans hother
            exact absurd current (not_current_of_changed stamp later)
      | _ => exact h.elim
  | leaving uid point =>
      cases point with
      | left ws r it => exact h
      | _ => exact h.elim
  | _ => exact h.elim

end Owes

/-! ## One round of an announcement -/

section Rounds

variable {w : World} {srv : WebRTCSimpleServer} {u v : Uid} {roomId : Option RoomId}
  {room : RoomId} {set : PySet Uid} {it : Iter Uid} {t : Turn} {k c : ConnId}
  {status : Option Text}

/-- Whom a joiner's announcement owes nothing was told before, or is told now. -/
theorem JoinRound.told (h : JoinRound srv u roomId room set it t)
    (found : srv.rooms room = some set) (inside : v ∈ set.elems)
    (registered : srv.peers v = some ⟨c, status⟩) (usable : w.socket c ≠ .closed)
    (unchanged : set.elems.card = it.used → set.changes = it.stamp)
    (settled : ¬ t.phase.Owes srv room v u) :
    (it.Current set ∧ v ∈ it.seen) ∨ w.noticeTo t c = some (.joined u) := by
  cases h with
  | done same all =>
      exact Or.inl ⟨⟨same.symm, (unchanged same).symm⟩, all (unchanged same) inside⟩
  | @tell pid recipient same member other fresh entry =>
      have told : it.Current set ∧ v ∈ insert pid it.seen := by
        by_contra unsettled
        refine settled ⟨rfl, rfl, fun set' found' current seen => unsettled ?_⟩
        cases found.symm.trans found'
        exact ⟨current, seen⟩
      rcases Finset.mem_insert.mp told.2 with rfl | seen
      · cases registered.symm.trans entry
        exact Or.inr (by simp [World.noticeTo, usable, Reply.notice])
      · exact Or.inl ⟨told.1, seen⟩

/-- Whom a leaver's announcement owes nothing was told before, or is told now. -/
theorem LeftRound.told (h : LeftRound srv u k room set it t) (inside : v ∈ set.elems)
    (registered : srv.peers v = some ⟨c, status⟩) (usable : w.socket c ≠ .closed)
    (seen : it.Current set → it.seen ⊆ set.elems)
    (unchanged : it.Current set ∨ it.used ≤ it.seen.card ∨ set.elems ⊆ it.seen)
    (settled : ¬ t.phase.Owes t.server room v u) :
    (it.used ≤ it.seen.card ∨ v ∈ it.seen) ∨ w.noticeTo t c = some (.left u) := by
  cases h with
  | done same all =>
      rcases unchanged with current | everybody | present
      · exact Or.inl (Or.inr (all current.2.symm inside))
      · exact Or.inl (Or.inl everybody)
      · exact Or.inl (Or.inr (present inside))
  | broken changed =>
      rcases unchanged with current | everybody | present
      · exact absurd current.1.symm changed
      · exact Or.inl (Or.inl everybody)
      · exact Or.inl (Or.inr (present inside))
  | @tell pid recipient same member fresh entry =>
      by_cases here : v = pid
      · subst here
        cases registered.symm.trans entry
        exact Or.inr (by simp [World.noticeTo, usable, Reply.notice])
      · refine Or.inl ?_
        by_contra neither
        rw [not_or] at neither
        obtain ⟨more, unseen⟩ := neither
        have unseen' : v ∉ insert pid it.seen := by simp [here, unseen]
        -- the round that tells the last one does so over an unchanged set
        have last : it.used ≤ (insert pid it.seen).card := by
          by_contra fewer
          exact settled ⟨rfl, rfl, not_le.mp fewer, unseen'⟩
        rcases unchanged with current | everybody | present
        · have all : insert pid it.seen = set.elems :=
            Finset.eq_of_subset_of_card_le (Finset.insert_subset member (seen current))
              (current.1 ▸ last)
          exact unseen' (all ▸ inside)
        · exact more everybody
        · exact unseen (present inside)

theorem JoinRound.noticeTo_cases (h : JoinRound srv u roomId room set it t) :
    w.noticeTo t c = none ∨ w.noticeTo t c = some (.joined u) ∧
      ∃ pid peer, pid ∈ set.elems ∧ pid ≠ u ∧ srv.peers pid = some peer ∧ peer.ws = c := by
  cases h with
  | done same all => exact Or.inl rfl
  | tell same member other fresh entry =>
      unfold World.noticeTo
      dsimp only
      split
      · next here => exact Or.inr ⟨rfl, _, _, member, other, entry, here.1.symm⟩
      · exact Or.inl rfl

theorem LeftRound.noticeTo_cases (h : LeftRound srv u k room set it t) :
    w.noticeTo t c = none ∨ w.noticeTo t c = some (.left u) ∧
      ∃ pid peer, pid ∈ set.elems ∧ srv.peers pid = some peer ∧ peer.ws = c := by
  cases h with
  | done same all => exact Or.inl rfl
  | broken changed => exact Or.inl rfl
  | tell same member fresh entry =>
      unfold World.noticeTo
      dsimp only
      split
      · next here => exact Or.inr ⟨rfl, _, _, member, entry, here.1.symm⟩
      · exact Or.inl rfl

end Rounds

/-! ## The invariant -/

structure RoomViews (w : World) : Prop where
  tables : RoomInvariant w
  list : ∀ k u roomId room, w.phase k = .running u roomId (.roomOk room) →
    w.view k = (w.listed k).toFinset ∧ u ∉ w.listed k
  view : ∀ room v k u, v ∈ w.server.members room → w.server.peers v = some ⟨k, some room⟩ →
    u ≠ v → (∀ j, ¬ (w.phase j).Owes w.server room v u) →
    (u ∈ w.view k ↔ u ∈ w.server.members room)
  self : ∀ room v k, v ∈ w.server.members room → w.server.peers v = some ⟨k, some room⟩ →
    v ∉ w.view k

section Step

variable {w w' : World} {act : Act} {own : Option Uid} {t : Turn} {u v p : Uid} {room : RoomId}
  {c j : ConnId}

theorem Phase.announces_of_idle {phase : Phase} (h : phase.idle = true) :
    phase.announces = false := by
  cases phase with
  | running u roomId point =>
      cases point with
      | joined r it => cases h
      | _ => rfl
  | leaving u point => cases h
  | _ => rfl

theorem RoomInvariant.running_of_member (inv : RoomInvariant w)
    (inside : v ∈ w.server.members room) (registered : w.server.peers v = some ⟨c, some room⟩) :
    ∃ roomId point, w.phase c = .running v roomId point := by
  obtain ⟨-, -, j, roomId, point, found, running⟩ := inv.member room v inside
  cases registered.symm.trans found
  exact ⟨roomId, point, running⟩

theorem RoomInvariant.usable_of_member (inv : RoomInvariant w)
    (inside : v ∈ w.server.members room) (registered : w.server.peers v = some ⟨c, some room⟩) :
    w.socket c ≠ .closed := by
  obtain ⟨roomId, point, running⟩ := inv.running_of_member inside registered
  exact inv.usable c (Or.inr (Or.inr ⟨_, _, _, running⟩))

/-- A connection belongs to a member of one room. -/
theorem RoomInvariant.room_unique (inv : RoomInvariant w) {room' : RoomId} {peer : Peer}
    (inside : v ∈ w.server.members room) (registered : w.server.peers v = some ⟨c, some room⟩)
    (inside' : u ∈ w.server.members room') (registered' : w.server.peers u = some peer)
    (same : peer.ws = c) : room = room' := by
  obtain ⟨-, -, j, roomId, point, found, running⟩ := inv.member room v inside
  obtain ⟨-, -, j', roomId', point', found', running'⟩ := inv.member room' u inside'
  cases registered.symm.trans found
  cases registered'.symm.trans found'
  cases same
  cases running.symm.trans running'
  cases found.symm.trans found'
  rfl

/-- The recipient of a notice about `u` is a member with a connection of its own. -/
theorem RoomInvariant.recipient (inv : RoomInvariant w) (inside : v ∈ w.server.members room)
    (other : v ≠ u) {peer : Peer} (found : w.server.peers v = some peer) {k : ConnId}
    (past : (w.phase k).past? = some u) :
    w.server.peers v = some ⟨peer.ws, some room⟩ ∧ peer.ws ≠ k ∧ w.socket peer.ws ≠ .closed := by
  obtain ⟨-, -, j, roomId, point, found', running⟩ := inv.member room v inside
  cases found.symm.trans found'
  refine ⟨found, ?_, inv.usable_of_member inside found⟩
  rintro rfl
  rw [running] at past
  cases past
  exact other rfl

/-- A turn about a uid is one of the handler that works for it. -/
theorem RoomStep.owner (h : RoomStep w act (some u) t)
    (past : (w.phase act.conn).past? = some v) : u = v := by
  have same : ∀ {phase : Phase}, w.phase act.conn = phase → phase.past? = some u → u = v := by
    intro phase waiting works
    rw [waiting, works] at past
    exact Option.some.inj past
  cases h with
  | registers waiting =>
      rw [Act.conn, waiting] at past
      cases past
  | lists waiting idle nonempty notSession created nodup lists => exact same waiting rfl
  | enters waiting idle nonempty notSession found round => exact same waiting rfl
  | joins waiting found round => exact same waiting rfl
  | quits waiting idle => exact same waiting rfl
  | leaves waiting member found listed round => exact same waiting rfl
  | tells waiting found round => exact same waiting rfl

theorem RoomStep.silent (h : RoomStep w act none t) : (w.phase act.conn).announces = false := by
  cases h with
  | still server silent before after => exact before

/-- Who is sent a notice by a turn, and what it says. -/
inductive NoticeTo (w : World) (act : Act) (own : Option Uid) (t : Turn) (j : ConnId) : Prop where
  | silent (silent : w.noticeTo t j = none)
  | told {u v room n} (about : own = some u) (notice : w.noticeTo t j = some n)
      (joinedOrLeft : n = .joined u ∨ n = .left u) (inside : v ∈ w.server.members room)
      (registered : w.server.peers v = some ⟨j, some room⟩) (other : j ≠ act.conn)
  | listed {u room order} (about : own = some u) (self : j = act.conn)
      (idle : w.server.peers u = some ⟨j, none⟩) (notice : w.noticeTo t j = some (.roster order))
      (lists : order.toFinset = w.server.members room)
      (phase : t.phase = .running u (some room) (.roomOk room))

theorem RoomInvariant.noticeTo (inv : RoomInvariant w) (h : RoomStep w act own t) (j : ConnId) :
    NoticeTo w act own t j := by
  have told : ∀ {u pid room peer n}, (w.phase act.conn).past? = some u → own = some u →
      pid ∈ w.server.members room → pid ≠ u → w.server.peers pid = some peer → peer.ws = j →
      w.noticeTo t j = some n → n = .joined u ∨ n = .left u → NoticeTo w act own t j := by
    intro u pid room peer n past about inside other found same notice either
    subst same
    obtain ⟨registered, apart, -⟩ := inv.recipient inside other found past
    exact .told about notice either inside registered apart
  cases h with
  | still server silent before after => exact .silent (noticeTo_of_silent silent)
  | registers waiting => exact .silent rfl
  | @lists k msg order pick u roomId room srv waiting idle nonempty notSession created nodup lists =>
      by_cases here : j = k ∧ w.socket k ≠ .closed
      · obtain ⟨rfl, usable⟩ := here
        exact .listed rfl rfl idle (by simp [World.noticeTo, usable, Reply.notice]) lists rfl
      · exact .silent (if_neg here)
  | @enters k pick u roomId room set t waiting idle nonempty notSession found round =>
      rcases round.noticeTo_cases with silent | ⟨notice, pid, peer, member, other, entry, same⟩
      · exact .silent silent
      · have inside : pid ∈ w.server.members room := by
          rw [members_of_rooms found]
          rw [PySet.elems_add] at member
          exact (Finset.mem_insert.mp member).resolve_left other
        exact told (congrArg Phase.past? waiting) rfl inside other
          (by simpa [other] using entry) same notice (Or.inl rfl)
  | @joins k pick u roomId room it set t waiting found round =>
      rcases round.noticeTo_cases with silent | ⟨notice, pid, peer, member, other, entry, same⟩
      · exact .silent silent
      · rw [← members_of_rooms found] at member
        exact told (congrArg Phase.past? waiting) rfl member other entry same notice (Or.inl rfl)
  | quits waiting idle => exact .silent rfl
  | @leaves act u roomId point room set t waiting entry found listed round =>
      rcases round.noticeTo_cases with silent | ⟨notice, pid, peer, member, registered, same⟩
      · exact .silent silent
      · obtain ⟨other, inside⟩ := Finset.mem_erase.mp member
        rw [← members_of_rooms found] at inside
        exact told (congrArg Phase.past? waiting) rfl inside other registered same notice
          (Or.inr rfl)
  | @tells k pick u room it set t waiting found round =>
      rcases round.noticeTo_cases with silent | ⟨notice, pid, peer, member, registered, same⟩
      · exact .silent silent
      · rw [← members_of_rooms found] at member
        have other : pid ≠ u := by
          rintro rfl
          obtain ⟨-, roomId, point, running⟩ :=
            inv.member_running member (congrArg Phase.past? waiting)
          cases waiting.symm.trans running
        exact told (congrArg Phase.past? waiting) rfl member other registered same notice
          (Or.inr rfl)

/-- A turn changes no view about anyone but the uid it is about. -/
theorem NoticeTo.view_iff (h : NoticeTo w act own t j) (notOwn : own ≠ some p)
    (notSelf : own = none ∨ j ≠ act.conn) :
    p ∈ (w.apply act.conn t).view j ↔ p ∈ w.view j := by
  cases h with
  | silent silent => rw [World.view_apply_none silent]
  | told about notice joinedOrLeft inside registered other =>
      have different : p ≠ _ := fun same => notOwn (about.trans (congrArg some same.symm))
      rw [World.view_apply_some notice]
      rcases joinedOrLeft with rfl | rfl
      · simp [Notice.apply, different]
      · simp [Notice.apply, different]
  | listed about self idle notice lists phase =>
      rcases notSelf with none | other
      · cases none.symm.trans about
      · exact absurd self other

namespace RoomViews

/-- A view agrees about `u` unless the handler of `u` itself owes a notice. -/
theorem agrees (inv : RoomViews w) {k : ConnId} (past : (w.phase k).past? = some u)
    (inside : v ∈ w.server.members room) (registered : w.server.peers v = some ⟨c, some room⟩)
    (other : u ≠ v) (settled : ¬ (w.phase k).Owes w.server room v u) :
    u ∈ w.view c ↔ u ∈ w.server.members room := by
  refine inv.view room v c u inside registered other fun j owes => settled ?_
  have same := inv.tables.handlers.unique j k u owes.past past
  exact same ▸ owes

section Known

variable (inv : RoomViews w) (other : v ≠ u) (inside : v ∈ w.server.members room)
  (registered : w.server.peers v = some ⟨c, some room⟩)

include inv inside registered

/-- The announcements of another room do not reach `v`. -/
theorem elsewhere {room' : RoomId} {set : PySet Uid} {pid : Uid} {peer : Peer}
    (found : w.server.rooms room' = some set) (different : room ≠ room')
    (member : pid ∈ set.elems) (entry : w.server.peers pid = some peer) : peer.ws ≠ c := by
  intro same
  rw [← members_of_rooms found] at member
  exact different (inv.tables.room_unique inside registered member entry same)

include other

/-- Without a notice, `v` knows what it knew before. -/
theorem known_of_silent {k : ConnId} (past : (w.phase k).past? = some u)
    (silent : w.noticeTo t c = none) (settled : ¬ (w.phase k).Owes w.server room v u) :
    u ∈ (w.apply k t).view c ↔ u ∈ w.server.members room := by
  rw [World.view_apply_none silent]
  exact inv.agrees past inside registered other.symm settled

theorem known_enters {k : ConnId} {roomId : Option RoomId} {room' : RoomId} {set : PySet Uid}
    (waiting : w.phase k = .running u roomId (.roomOk room'))
    (found : w.server.rooms room' = some set)
    (round : JoinRound ((w.server.writePeer u (some ⟨k, some room'⟩)).writeRoom room' (set.add u))
      u roomId room' (set.add u) ((set.add u).iter {u}) t)
    (settled : ¬ t.phase.Owes t.server room v u) :
    u ∈ (w.apply k t).view c ↔ u ∈ t.server.members room := by
  have usable : w.socket c ≠ .closed := inv.tables.usable_of_member inside registered
  have before := inv.agrees (congrArg Phase.past? waiting) inside registered other.symm
    (by simp [waiting, Phase.Owes])
  rw [round.server] at settled ⊢
  rw [members_writeRoom, members_writePeer]
  by_cases same : room = room'
  · subst same
    rw [members_of_rooms found] at inside
    have entry : ((w.server.writePeer u (some ⟨k, some room⟩)).writeRoom room
        (set.add u)).peers v = some ⟨c, some room⟩ := by simpa [other] using registered
    have told := round.told (by simp) (by simp [inside]) entry usable (fun _ => rfl) settled
    rw [World.view_apply_some (told.resolve_left (by simp [PySet.iter, other]))]
    simp [Notice.apply]
  · rw [Function.update_of_ne same, ← before]
    rcases round.noticeTo_cases with silent | ⟨-, pid, peer, member, different, entry, here⟩
    · rw [World.view_apply_none silent]
    · rw [PySet.elems_add] at member
      exact absurd here (inv.elsewhere inside registered found same
        ((Finset.mem_insert.mp member).resolve_left different)
        (by simpa [different] using entry))

theorem known_joins {k : ConnId} {pick : Option Uid} {roomId : Option RoomId} {room' : RoomId}
    {it : Iter Uid} {set : PySet Uid} (orderly : inTurn w (.resume k false pick) = true)
    (waiting : w.phase k = .running u roomId (.joined room' it))
    (found : w.server.rooms room' = some set)
    (round : JoinRound w.server u roomId room' set it t)
    (settled : ¬ t.phase.Owes t.server room v u) :
    u ∈ (w.apply k t).view c ↔ u ∈ t.server.members room := by
  have usable : w.socket c ≠ .closed := inv.tables.usable_of_member inside registered
  have past := congrArg Phase.past? waiting
  rw [round.server] at settled ⊢
  by_cases same : room = room'
  · subst same
    have member := inv.tables.member_of_joined waiting
    refine iff_of_true ?_ member
    simp only [inTurn, waiting, found, Option.all_some, decide_eq_true_eq] at orderly
    have inside' := inside
    rw [members_of_rooms found] at inside'
    rcases round.told found inside' registered usable orderly settled with ⟨current, seen⟩ | told
    · have before := (inv.agrees past inside registered other.symm (by
        rintro owes
        rw [waiting] at owes
        exact owes.2.2 set found current seen)).mpr member
      rcases round.noticeTo_cases with silent | ⟨notice, -⟩
      · rwa [World.view_apply_none silent]
      · rw [World.view_apply_some notice]
        exact Finset.mem_insert_self u _
    · rw [World.view_apply_some told]
      exact Finset.mem_insert_self u _
  · rcases round.noticeTo_cases with silent | ⟨-, pid, peer, member, -, entry, here⟩
    · refine inv.known_of_silent other inside registered past silent ?_
      rw [waiting]
      rintro ⟨-, here, -⟩
      exact same here.symm
    · exact absurd here (inv.elsewhere inside registered found same member entry)

theorem known_leaves {roomId : Option RoomId} {point : LoopPoint} {room' : RoomId} {set : PySet Uid}
    (waiting : w.phase act.conn = .running u roomId point)
    (entry : w.server.peers u = some ⟨act.conn, some room'⟩)
    (found : w.server.rooms room' = some set)
    (round : LeftRound (w.server.writeRoom room' (set.remove u)) u act.conn room' (set.remove u)
      ((set.remove u).iter ∅) t)
    (settled : ¬ t.phase.Owes t.server room v u) :
    u ∈ (w.apply act.conn t).view c ↔ u ∈ t.server.members room := by
  have usable : w.socket c ≠ .closed := inv.tables.usable_of_member inside registered
  have past := congrArg Phase.past? waiting
  rw [round.members, members_writeRoom]
  by_cases same : room = room'
  · subst same
    rw [members_of_rooms found] at inside
    have remains : v ∈ (set.remove u).elems := by simp [other, inside]
    have told := round.told remains registered usable (by simp [PySet.iter])
      (Or.inl (Iter.current_iter _ _)) settled
    have nobody : ¬ (((set.remove u).iter ∅).used ≤ ((set.remove u).iter ∅).seen.card ∨
        v ∈ ((set.remove u).iter ∅).seen) := by
      simp only [PySet.iter, Finset.card_empty, Nat.le_zero, Finset.card_eq_zero,
        Finset.notMem_empty, or_false]
      exact Finset.ne_empty_of_mem remains
    rw [World.view_apply_some (told.resolve_left nobody)]
    simp [Notice.apply]
  · rw [Function.update_of_ne same]
    rcases round.noticeTo_cases with silent | ⟨-, pid, peer, member, entry', here⟩
    · refine inv.known_of_silent other inside registered past silent fun owes => ?_
      rw [waiting] at owes
      cases point with
      | joined r it =>
          obtain ⟨registered', -⟩ :=
            inv.tables.member_running (inv.tables.member_of_joined waiting) past
          cases entry.symm.trans registered'
          exact same owes.2.1.symm
      | _ => exact owes.elim
    · exact absurd here (inv.elsewhere inside registered found same
        (Finset.mem_of_mem_erase member) entry')

theorem known_tells {k : ConnId} {pick : Option Uid} {room' : RoomId} {it : Iter Uid}
    {set : PySet Uid} (orderly : inTurn w (.resume k false pick) = true)
    (waiting : w.phase k = .leaving u (.left k room' it))
    (found : w.server.rooms room' = some set) (round : LeftRound w.server u k room' set it t)
    (settled : ¬ t.phase.Owes t.server room v u) :
    u ∈ (w.apply k t).view c ↔ u ∈ t.server.members room := by
  have usable : w.socket c ≠ .closed := inv.tables.usable_of_member inside registered
  have past := congrArg Phase.past? waiting
  have standing := inv.tables.standing k
  rw [waiting] at standing
  obtain ⟨-, set', found', -, seen⟩ := standing
  cases found.symm.trans found'
  rw [round.members]
  by_cases same : room = room'
  · subst same
    have gone : u ∉ w.server.members room := by
      intro member
      obtain ⟨-, roomId, point, running⟩ := inv.tables.member_running member past
      cases waiting.symm.trans running
    refine iff_of_false ?_ gone
    simp only [inTurn, waiting, found, Option.all_some, decide_eq_true_eq] at orderly
    have inside' := inside
    rw [members_of_rooms found] at inside'
    rcases round.told inside' registered usable seen orderly settled with before | told
    · have unknown : u ∉ w.view c := by
        rw [inv.agrees past inside registered other.symm ?_]
        · exact gone
        · rw [waiting]
          rintro ⟨-, -, more, unseen⟩
          exact before.elim (not_le.mpr more) unseen
      rcases round.noticeTo_cases with silent | ⟨notice, -⟩
      · rwa [World.view_apply_none silent]
      · rw [World.view_apply_some notice]
        exact Finset.notMem_erase u _
    · rw [World.view_apply_some told]
      exact Finset.notMem_erase u _
  · rcases round.noticeTo_cases with silent | ⟨-, pid, peer, member, entry, here⟩
    · refine inv.known_of_silent other inside registered past silent ?_
      rw [waiting]
      rintro ⟨-, here, -⟩
      exact same here.symm
    · exact absurd here (inv.elsewhere inside registered found same member entry)

/-- What the others know about the uid of the turn. -/
theorem known (allowed : RoomClients w act) (orderly : inTurn w act = true)
    (h : RoomStep w act (some u) t) (settled : ¬ t.phase.Owes t.server room v u) :
    u ∈ (w.apply act.conn t).view c ↔ u ∈ t.server.members room := by
  cases h with
  | @registers k pick u waiting =>
      rw [World.view_apply_none rfl, Turn.server, register, members_writePeer]
      refine inv.view room v c u inside registered other.symm fun j owes => ?_
      exact allowed.1 k pick u rfl waiting j owes.past
  | @lists k msg order pick u roomId room' srv waiting idle nonempty notSession created nodup
      lists =>
      have past := congrArg Phase.past? waiting
      have away : c ≠ k := (inv.tables.recipient inside other registered past).2.1
      have members : srv.members = w.server.members := by
        rcases created with ⟨rfl, -⟩ | ⟨rfl, missing⟩
        · rfl
        · exact members_newRoom missing
      have nothing : ¬ (w.phase k).Owes w.server room v u := by simp [waiting, Phase.Owes]
      rw [Turn.server, members]
      exact inv.known_of_silent other inside registered past (by simp [World.noticeTo, away])
        nothing
  | enters waiting idle nonempty notSession found round =>
      exact inv.known_enters other inside registered waiting found round settled
  | joins waiting found round =>
      exact inv.known_joins other inside registered orderly waiting found round settled
  | @quits act u roomId point waiting idle =>
      rw [Turn.server, members_writePeer]
      refine inv.known_of_silent other inside registered (congrArg Phase.past? waiting) rfl
        fun owes => ?_
      rw [waiting] at owes
      cases point with
      | joined r it =>
          exact inv.tables.outside_of_idle idle r (inv.tables.member_of_joined waiting)
      | _ => exact owes.elim
  | leaves waiting entry found listed round =>
      exact inv.known_leaves other inside registered waiting entry found round settled
  | tells waiting found round =>
      exact inv.known_tells other inside registered orderly waiting found round settled

end Known

/-- A turn sends the uid that it is about no notice but a list. -/
theorem unaddressed (inv : RoomViews w) {k : ConnId} (past : (w.phase k).past? = some u)
    {roomId : Option RoomId} {set : PySet Uid} {it : Iter Uid} {srv : WebRTCSimpleServer}
    (round : JoinRound srv u roomId room set it t)
    (members : ∀ pid ∈ set.elems, pid ≠ u → pid ∈ w.server.members room)
    (peers : ∀ pid, pid ≠ u → srv.peers pid = w.server.peers pid) : w.noticeTo t k = none := by
  refine round.noticeTo_cases.resolve_right ?_
  rintro ⟨-, pid, peer, member, other, entry, here⟩
  rw [peers pid other] at entry
  exact (inv.tables.recipient (members pid member other) other entry past).2.1 here

/-- What the uid of the turn knows, once it is in a room. -/
theorem knows (inv : RoomViews w) (orderly : inTurn w act = true)
    (h : RoomStep w act (some u) t) (turn : RoomTurn w act.conn (some u) t)
    (inside : u ∈ t.server.members room) :
    u ∉ (w.apply act.conn t).view act.conn ∧ ∀ p, p ≠ u →
      (∀ j, j ≠ act.conn → ¬ (w.phase j).Owes t.server room u p) →
      (p ∈ (w.apply act.conn t).view act.conn ↔ p ∈ t.server.members room) := by
  obtain ⟨-, -, entered, roomId', point', running⟩ := turn.member room u rfl inside
  cases h with
  | @registers k pick u waiting => simp [Turn.server, register, Act.conn] at entered
  | @lists k msg order pick u roomId room' srv waiting idle nonempty notSession created nodup
      lists =>
      have same : srv.peers = w.server.peers := by
        rcases created with ⟨rfl, -⟩ | ⟨rfl, -⟩ <;> rfl
      rw [Turn.server, same] at entered
      cases idle.symm.trans entered
  | @enters k pick u roomId room' set t waiting idle nonempty notSession found round =>
      have past := congrArg Phase.past? waiting
      have silent : w.noticeTo t k = none := by
        refine inv.unaddressed past round ?_ fun pid other => by simp [other]
        intro pid member other
        rw [PySet.elems_add] at member
        rw [members_of_rooms found]
        exact (Finset.mem_insert.mp member).resolve_left other
      have here : room = room' := by
        rw [round.server, peers_writeRoom, peers_writePeer, Function.update_self] at entered
        cases entered
        rfl
      subst here
      have rooms : t.server.rooms room = some (set.add u) := by
        rw [round.server]
        simp
      obtain ⟨view, unlisted⟩ := inv.list k u roomId room waiting
      have outside := inv.tables.outside_of_idle idle room
      simp only [inTurn, waiting, Bool.and_eq_true, decide_eq_true_eq] at orderly
      obtain ⟨listed, unlistedJoins⟩ := orderly
      rw [Act.conn, World.view_apply_none silent, view]
      refine ⟨by simpa using unlisted, fun p other settled => ?_⟩
      rw [List.mem_toFinset, members_of_rooms rooms, PySet.elems_add, Finset.mem_insert,
        or_iff_right other, ← members_of_rooms found]
      refine ⟨listed p, fun member => (unlistedJoins p member).resolve_right ?_⟩
      -- a joiner that the list does not name has its own announcement cut short
      intro joins
      rw [Option.any_eq_true] at joins
      obtain ⟨peer, entry, joining⟩ := joins
      refine settled peer.ws (inv.tables.recipient member other entry past).2.1 ?_
      obtain ⟨roomId', it, phase⟩ := Phase.running_of_joining joining
      rw [phase]
      refine ⟨rfl, rfl, fun other hother current => ?_⟩
      cases rooms.symm.trans hother
      have standing := inv.tables.standing peer.ws
      rw [phase] at standing
      obtain ⟨status, -, -, set', found', -, stamp⟩ := standing
      cases found.symm.trans found'
      refine absurd current (not_current_of_changed stamp ?_)
      rw [members_of_rooms found] at outside
      simp [PySet.add, outside]
  | @joins k pick u roomId room' it set t waiting found round =>
      have past := congrArg Phase.past? waiting
      have silent : w.noticeTo t k = none := by
        refine inv.unaddressed past round ?_ fun pid other => rfl
        intro pid member other
        rwa [members_of_rooms found]
      rw [round.server] at inside entered ⊢
      rw [Act.conn, World.view_apply_none silent]
      refine ⟨inv.self room u k inside entered, fun p other settled => ?_⟩
      refine inv.view room u k p inside entered other fun j owes => ?_
      by_cases self : j = k
      · subst self
        have past' := owes.past
        rw [past] at past'
        cases past'
        exact other rfl
      · exact settled j self owes
  | @quits act u roomId point waiting idle => cases running
  | @leaves act u roomId point room' set t waiting entry found listed round =>
      cases round <;> cases running
  | @tells k pick u room' it set t waiting found round => cases round <;> cases running

theorem init : RoomViews World.empty := by
  refine ⟨.init, ?_, ?_, ?_⟩
  · rintro k u roomId room ⟨⟩
  · rintro room v k u inside -
    exact absurd inside (Finset.notMem_empty v)
  · rintro room v k inside -
    exact absurd inside (Finset.notMem_empty v)

/-- The environment's part of a step changes nothing that views are made of. -/
theorem environment (inv : RoomViews w) (tables : RoomInvariant w') (env : Environment w w') :
    RoomViews w' := by
  have view : ∀ k, w'.view k = w.view k := fun k => by
    rw [World.view, World.notices, env.log, World.view, World.notices]
  have listed : ∀ k, w'.listed k = w.listed k := fun k => by
    rw [World.listed, World.notices, env.log, World.listed, World.notices]
  refine ⟨tables, ?_, ?_, ?_⟩
  · intro k u roomId room waiting
    rw [view, listed]
    rw [env.idle (by rw [waiting]; rfl)] at waiting
    exact inv.list k u roomId room waiting
  · intro room v k u inside registered other settled
    rw [env.server] at inside registered ⊢
    rw [view]
    refine inv.view room v k u inside registered other fun j owes => settled j ?_
    rw [env.server]
    rcases env.conns j with ⟨same, -⟩ | ⟨absent, -, -⟩
    · rwa [same]
    · rw [absent] at owes
      exact owes.elim
  · intro room v k inside registered
    rw [env.server] at inside registered
    rw [view]
    exact inv.self room v k inside registered

/-- The list of a `ROOM_OK` that is on its way is the view of its recipient. -/
theorem list_turn (inv : RoomViews w) (h : RoomStep w act own t) {k : ConnId}
    {roomId : Option RoomId}
    (waiting : (w.apply act.conn t).phase k = .running u roomId (.roomOk room)) :
    (w.apply act.conn t).view k = ((w.apply act.conn t).listed k).toFinset ∧
      u ∉ (w.apply act.conn t).listed k := by
  by_cases self : k = act.conn
  · subst self
    rw [World.apply_phase_self] at waiting
    cases h with
    | still server silent before after =>
        rcases after with ⟨past, -⟩ | ⟨v, r, r', p, p', -, phase, plain⟩
        · rw [waiting] at past
          cases past
        · cases waiting.symm.trans phase
          cases plain
    | @lists k msg order pick v roomId' room' srv before idle nonempty notSession created nodup
        lists =>
        have usable := inv.tables.usable k (Or.inr (Or.inr ⟨_, _, _, before⟩))
        have notice : w.noticeTo (.send srv k (.roomOk room' order)
            (.running v (some room') (.roomOk room'))) k = some (.roster order) := by
          simp [World.noticeTo, usable, Reply.notice]
        cases waiting
        rw [Act.conn, World.view_apply_some notice, World.listed_apply_roster notice]
        refine ⟨rfl, ?_⟩
        rw [← List.mem_toFinset, lists]
        exact inv.tables.outside_of_idle idle room
    | registers before => cases waiting
    | quits before idle => cases waiting
    | enters before idle nonempty notSession found round => cases round <;> cases waiting
    | joins before found round => cases round <;> cases waiting
    | leaves before member found listed round => cases round <;> cases waiting
    | tells before found round => cases round <;> cases waiting
  · rw [World.apply_phase_of_ne _ _ _ self] at waiting
    have silent : w.noticeTo t k = none := by
      cases inv.tables.noticeTo h k with
      | silent silent => exact silent
      | told about notice joinedOrLeft inside registered other =>
          obtain ⟨roomId', point, running⟩ := inv.tables.running_of_member inside registered
          cases waiting.symm.trans running
          have standing := inv.tables.standing k
          rw [waiting] at standing
          obtain ⟨status, found, -, idle, -⟩ := standing
          cases registered.symm.trans found
          cases idle
      | listed about here idle notice lists phase => exact absurd here self
    rw [World.view_apply_none silent, World.listed_apply_none silent]
    exact inv.list k u roomId room waiting

theorem turn (inv : RoomViews w) (allowed : RoomClients w act) (orderly : inTurn w act = true)
    (h : RoomStep w act own t) (turn : RoomTurn w act.conn own t)
    (tables : RoomInvariant (w.apply act.conn t)) : RoomViews (w.apply act.conn t) := by
  -- another uid than that of the turn keeps its place and its connection
  have before : ∀ {room v k}, own ≠ some v → v ∈ t.server.members room →
      t.server.peers v = some ⟨k, some room⟩ → v ∈ w.server.members room ∧
        w.server.peers v = some ⟨k, some room⟩ ∧ (own = none ∨ k ≠ act.conn) := by
    intro room v k notOwn inside registered
    rw [turn.touches.members room v notOwn] at inside
    rw [turn.touches.peers v notOwn] at registered
    refine ⟨inside, registered, ?_⟩
    cases own with
    | none => exact Or.inl rfl
    | some u =>
        refine Or.inr fun self => notOwn (congrArg some ?_)
        obtain ⟨roomId, point, running⟩ := inv.tables.running_of_member inside registered
        exact h.owner (self ▸ congrArg Phase.past? running)
  refine ⟨tables, fun k u roomId room waiting => inv.list_turn h waiting, ?_, ?_⟩
  · intro room v k u inside registered other settled
    rw [World.apply_server] at inside registered settled ⊢
    have apart : ∀ j, j ≠ act.conn → ¬ (w.phase j).Owes t.server room v u := fun j away owes =>
      settled j (by rwa [World.apply_phase_of_ne _ _ _ away])
    by_cases mine : own = some v
    · subst mine
      obtain ⟨-, -, entered, -⟩ := turn.member room v rfl inside
      cases registered.symm.trans entered
      exact (inv.knows orderly h turn inside).2 u other apart
    · obtain ⟨inside', registered', notSelf⟩ := before mine inside registered
      by_cases about : own = some u
      · subst about
        refine inv.known other.symm inside' registered' allowed orderly h fun owes => ?_
        exact settled act.conn (by rwa [World.apply_phase_self])
      · rw [(inv.tables.noticeTo h k).view_iff about notSelf, turn.touches.members room u about]
        refine inv.view room v k u inside' registered' other fun j owes => ?_
        by_cases self : j = act.conn
        · subst self
          cases own with
          | none => exact absurd owes.announces (by simp [h.silent])
          | some x => exact about (congrArg some (h.owner owes.past))
        · exact apart j self (owes.touched (inv.tables.standing j) turn.touches)
  · intro room v k inside registered
    rw [World.apply_server] at inside registered
    by_cases mine : own = some v
    · subst mine
      obtain ⟨-, -, entered, -⟩ := turn.member room v rfl inside
      cases registered.symm.trans entered
      exact (inv.knows orderly h turn inside).1
    · obtain ⟨inside', registered', notSelf⟩ := before mine inside registered
      rw [(inv.tables.noticeTo h k).view_iff mine notSelf]
      exact inv.self room v k inside' registered'

theorem step (inv : RoomViews w) (allowed : RoomClients w act) (orderly : inTurn w act = true)
    (h : w.step act = some w') : RoomViews w' := by
  have tables := inv.tables.step allowed h
  rcases inv.tables.cases allowed h with env | ⟨own, t, -, roomStep, roomTurn, rfl⟩
  · exact inv.environment tables env
  · exact inv.turn allowed orderly roomStep roomTurn tables

theorem of_reachable
    (run : interleaved.Reachable (fun w act => RoomClients w act ∧ inTurn w act) w) :
    RoomViews w :=
  run.invariant init fun _ _ _ inv allowed h => inv.step allowed.1 allowed.2 h

theorem agree (inv : RoomViews w) (quiet : w.Quiet) : ViewsAgree w := by
  intro room v inside
  obtain ⟨-, -, k, roomId, point, registered, -⟩ := inv.tables.member room v inside
  refine ⟨_, registered, ?_⟩
  ext u
  rw [Finset.mem_erase]
  by_cases self : u = v
  · subst self
    simp [inv.self room u k inside registered]
  · rw [inv.view room v k u inside registered self, and_iff_right self]
    intro j owes
    exact absurd owes.announces (by simp [Phase.announces_of_idle (quiet j)])

end RoomViews

end Step

/--
In the runs in which the announcements of a room are not mixed up, every member
knows its room whenever no message and no cleanup is being handled.
-/
theorem room_views {w : World}
    (run : interleaved.Reachable (fun w act => RoomClients w act ∧ inTurn w act) w)
    (quiet : w.Quiet) : ViewsAgree w :=
  (RoomViews.of_reachable run).agree quiet

/-! ## Checking a run of room clients -/

/-- `RoomClients` on the first `n` connections, the only ones in use. -/
def clientsBelow (n : Nat) (w : World) (act : Act) : Bool :=
  decide (act.conn < n) && roomsOnly w act && aloneBelow n w act

theorem roomClients_of_below {n : Nat} {w : World} {act : Act} (absent : AbsentFrom n w)
    (ok : clientsBelow n w act = true) : RoomClients w act := by
  simp only [clientsBelow, Bool.and_eq_true] at ok
  exact ⟨registersAlone_of_below absent ok.2, ok.1.2⟩

theorem exists_clients (n : Nat) (guard : World → Act → Bool) (actions : List Act)
    (test : World → Bool)
    (passes : (interleaved.execIf (fun w act => clientsBelow n w act && guard w act)
      World.empty actions).any test = true) :
    ∃ w, interleaved.Reachable (fun w act => RoomClients w act ∧ guard w act) w ∧
      AbsentFrom n w ∧ test w = true := by
  refine exists_below ?_ ?_ actions test passes
  · intro w act ok
    have below := (Bool.and_eq_true_iff.mp ok).1
    simp only [clientsBelow, Bool.and_eq_true, decide_eq_true_eq] at below
    exact below.1.1
  · intro w act absent ok
    obtain ⟨below, guarded⟩ := Bool.and_eq_true_iff.mp ok
    exact ⟨roomClients_of_below absent below, guarded⟩

/-- A second client joins a room and is announced to the first one. -/
theorem room_views_pair :
    ∃ w, w.server.members "r".toList = {"x".toList, "y".toList} ∧ ViewsAgree w := by
  obtain ⟨w, run, absent, test⟩ := exists_clients 2 inTurn
    (greeting 0 "x" ++ greeting 1 "y" ++
      [.recv 0 "ROOM r".toList [] none, .resume 0 false none,
        .recv 1 "ROOM r".toList ["x".toList] none, .resume 1 false (some "x".toList),
        .resume 1 false none])
    (fun w => quietBelow 2 w && w.server.members "r".toList = {"x".toList, "y".toList})
    (by decide)
  obtain ⟨idle, members⟩ := Bool.and_eq_true_iff.mp test
  exact ⟨w, of_decide_eq_true members, room_views run (absent.quiet idle)⟩

/-- Two clients are sent the list of the empty room before either enters it. -/
theorem room_joiner_missed :
    ¬ ∀ w, interleaved.Reachable RoomClients w → w.Quiet → ViewsAgree w := by
  intro agree
  obtain ⟨w, run, absent, test⟩ := exists_clients 2 (fun _ _ => true)
    (greeting 0 "x" ++ greeting 1 "y" ++
      [.recv 0 "ROOM r".toList [] none, .recv 1 "ROOM r".toList [] none,
        .resume 0 false none, .resume 1 false (some "x".toList), .resume 1 false none])
    (fun w => quietBelow 2 w && w.server.peers "y".toList = some ⟨1, some "r".toList⟩ &&
      w.server.members "r".toList = {"x".toList, "y".toList} && "x".toList ∉ w.view 1)
    (by decide)
  simp only [Bool.and_eq_true, decide_eq_true_eq] at test
  obtain ⟨⟨⟨idle, registered⟩, members⟩, unknown⟩ := test
  have reachable := run.mono fun _ _ allowed => allowed.1
  obtain ⟨peer, found, view⟩ := agree w reachable (absent.quiet idle) "r".toList "y".toList
    (by rw [members]; decide)
  cases registered.symm.trans found
  rw [view, members] at unknown
  exact unknown (by decide)

end GstWebrtc.Signalling
