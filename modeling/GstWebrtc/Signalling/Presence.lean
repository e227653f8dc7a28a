import GstWebrtc.Base.Directory
import GstWebrtc.Signalling.Cleanup
import GstWebrtc.Signalling.Identifiers

/-!
# The tables as a directory

`peers`, `sessions` and `rooms` together say of each uid whether it is absent,
idle, in a call or in a room.  Handlers write them in several places, and give
up control in between; yet each of their steps is one event of a directory, or
none, as long as each uid has one handler and no command is overtaken by another
one while its reply is being sent.
-/

namespace GstWebrtc.Signalling

open GstWebrtc.Base GstWebrtc.Base.PyText WebRTCSimpleServer

abbrev Presence := Directory Uid RoomId

/-- The directory that the tables stand for. -/
def WebRTCSimpleServer.directory (srv : WebRTCSimpleServer) : Presence := fun uid =>
  match srv.peers uid with
  | none => none
  | some ⟨_, none⟩ => some .idle
  | some ⟨_, some status⟩ =>
      if status = inSession then (srv.sessions uid).map .calling
      else if uid ∈ srv.members status then some (.inside status) else none

/-- The tables agree with each other, and with the directory. -/
structure Shows (srv : WebRTCSimpleServer) (d : Presence) : Prop where
  idle : ∀ u, d u = some .idle ↔ ∃ ws, srv.peers u = some ⟨ws, none⟩
  calling : ∀ a b, d a = some (.calling b) ↔ srv.sessions a = some b
  inside : ∀ u r, d u = some (.inside r) ↔ u ∈ srv.members r
  busy : ∀ a b, srv.sessions a = some b → ∃ ws, srv.peers a = some ⟨ws, some inSession⟩
  seated : ∀ u r, u ∈ srv.members r →
    r ≠ [] ∧ r ≠ inSession ∧ ∃ ws, srv.peers u = some ⟨ws, some r⟩

/-- The uid departs, unless it has departed before. -/
inductive Departs (d : Presence) (u : Uid) : Presence → Prop where
  | gone (absent : d u = none) : Departs d u d
  | now (present : d u ≠ none) : Departs d u (d.departed u)

theorem Departs.absent {d' : Presence} (departs : Departs d u d') : d' u = none := by
  cases departs with
  | gone absent => exact absent
  | now present => exact Directory.departed_self d u

namespace Shows

variable {srv srv' : WebRTCSimpleServer} {d : Presence} {u v : Uid} {room : RoomId}

theorem empty : Shows WebRTCSimpleServer.empty fun _ => none where
  idle u := by simp [WebRTCSimpleServer.empty]
  calling a b := by simp [WebRTCSimpleServer.empty]
  inside u r := by simp [WebRTCSimpleServer.empty, members]
  busy := by rintro a b ⟨⟩
  seated u r inside := absurd inside (Finset.notMem_empty u)

/-- The tables leave no choice. -/
theorem eq_directory (shows : Shows srv d) : srv.directory = d := by
  funext u
  unfold WebRTCSimpleServer.directory
  cases there : d u with
  | none =>
      split
      · rfl
      · next ws found => cases there.symm.trans ((shows.idle u).mpr ⟨ws, found⟩)
      · split
        · cases linked : srv.sessions u with
          | none => rfl
          | some b => cases there.symm.trans ((shows.calling u b).mpr linked)
        · split
          · next inside => cases there.symm.trans ((shows.inside u _).mpr inside)
          · rfl
  | some place =>
      cases place with
      | idle =>
          obtain ⟨ws, found⟩ := (shows.idle u).mp there
          rw [found]
      | calling b =>
          have linked := (shows.calling u b).mp there
          obtain ⟨ws, found⟩ := shows.busy u b linked
          rw [found, linked]
          exact if_pos rfl
      | inside r =>
          have member := (shows.inside u r).mp there
          obtain ⟨-, notSession, ws, found⟩ := shows.seated u r member
          rw [found]
          simp only [if_neg notSession, if_pos member]

theorem congr (shows : Shows srv d) (peers : srv'.peers = srv.peers)
    (sessions : srv'.sessions = srv.sessions) (members : srv'.members = srv.members) :
    Shows srv' d := by
  refine ⟨?_, ?_, ?_, ?_, ?_⟩
  · rw [peers]
    exact shows.idle
  · rw [sessions]
    exact shows.calling
  · rw [members]
    exact shows.inside
  · rw [sessions, peers]
    exact shows.busy
  · rw [members, peers]
    exact shows.seated

/-- Who is idle is in no session. -/
theorem unlinked_of_idle (shows : Shows srv d) (free : d u = some .idle) : srv.sessions u = none := by
  cases linked : srv.sessions u with
  | none => rfl
  | some b => cases free.symm.trans ((shows.calling u b).mpr linked)

theorem outside_of_idle (shows : Shows srv d) (free : d u = some .idle) : u ∉ srv.members room :=
  fun inside => by cases free.symm.trans ((shows.inside u room).mpr inside)

theorem unlinked_of_absent (shows : Shows srv d) (absent : d u = none) : srv.sessions u = none := by
  cases linked : srv.sessions u with
  | none => rfl
  | some b => cases absent.symm.trans ((shows.calling u b).mpr linked)

theorem outside_of_absent (shows : Shows srv d) (absent : d u = none) : u ∉ srv.members room :=
  fun inside => by cases absent.symm.trans ((shows.inside u room).mpr inside)

/-- A uid that is in no session and no room is given an entry, or loses it. -/
theorem writePeer (shows : Shows srv d) (unlinked : srv.sessions u = none)
    (outside : ∀ room, u ∉ srv.members room) {entry : Option Peer}
    {place : Option (Place Uid RoomId)} (alone : place = some .idle ∨ place = none)
    (fits : place = some .idle ↔ ∃ ws, entry = some ⟨ws, none⟩) :
    Shows (srv.writePeer u entry) (Function.update d u place) := by
  have notCalling : ∀ b, place ≠ some (.calling b) := by
    rintro b rfl
    simp at alone
  have notInside : ∀ r, place ≠ some (.inside r) := by
    rintro r rfl
    simp at alone
  refine ⟨fun v => ?_, fun a b => ?_, fun v r => ?_, fun a b linked => ?_, fun v r inside => ?_⟩
  · rw [peers_writePeer]
    by_cases self : v = u
    · subst self
      rw [Function.update_self, Function.update_self]
      exact fits
    · rw [Function.update_of_ne self, Function.update_of_ne self]
      exact shows.idle v
  · rw [sessions_writePeer]
    by_cases self : a = u
    · subst self
      rw [Function.update_self, unlinked]
      exact iff_of_false (notCalling b) nofun
    · rw [Function.update_of_ne self]
      exact shows.calling a b
  · rw [members_writePeer]
    by_cases self : v = u
    · subst self
      rw [Function.update_self]
      exact iff_of_false (notInside r) (outside r)
    · rw [Function.update_of_ne self]
      exact shows.inside v r
  · have other : a ≠ u := by
      rintro rfl
      cases unlinked.symm.trans linked
    rw [peers_writePeer, Function.update_of_ne other]
    exact shows.busy a b linked
  · rw [members_writePeer] at inside
    have other : v ≠ u := by
      rintro rfl
      exact outside r inside
    rw [peers_writePeer, Function.update_of_ne other]
    exact shows.seated v r inside

theorem register (shows : Shows srv d) (absent : d u = none) (ws : ConnId) :
    Shows (srv.register ws u) (Function.update d u (some .idle)) :=
  shows.writePeer (shows.unlinked_of_absent absent) (fun _ => shows.outside_of_absent absent)
    (Or.inl rfl) ⟨fun _ => ⟨ws, rfl⟩, fun _ => rfl⟩

theorem deletePeer (shows : Shows srv d) (unlinked : srv.sessions u = none)
    (outside : ∀ room, u ∉ srv.members room) (ws : ConnId) :
    Shows (deletePeer srv u ws).server (Function.update d u none) := by
  have erased : Shows (srv.writePeer u none) (Function.update d u none) :=
    shows.writePeer unlinked outside (Or.inr rfl) (by simp)
  unfold Signalling.deletePeer
  split
  · next absent =>
      refine erased.congr ?_ rfl (members_writePeer ..).symm
      rw [peers_writePeer, Function.update_eq_self_iff.mpr absent.symm]
      rfl
  · exact erased

/-- The entry of somebody who is already gone is deleted. -/
theorem deletePeer_absent (shows : Shows srv d) (absent : d u = none) (ws : ConnId) :
    Shows (Signalling.deletePeer srv u ws).server d := by
  have deleted := shows.deletePeer (shows.unlinked_of_absent absent)
    (fun _ => shows.outside_of_absent absent) ws
  rwa [Function.update_eq_self_iff.mpr absent.symm] at deleted

theorem registerSession (shows : Shows srv d) (caller : d u = some .idle)
    (callee : d v = some .idle) (linked : srv.registerSession u v = some srv') :
    Shows srv' (d.called u v) := by
  obtain ⟨peer, calleePeer, hcaller, hcallee, hpeers, -, hrooms⟩ := registerSession_eq linked
  have sessions := Sessions.registered_sessions linked
  have members : srv'.members = srv.members := members_congr hrooms
  have peers : ∀ w, srv'.peers w = if w = v then some { calleePeer with status := some inSession }
      else if w = u then some { peer with status := some inSession } else srv.peers w := by
    intro w
    rw [hpeers]
    by_cases isCallee : w = v
    · rw [if_pos isCallee, isCallee, Function.update_self]
    · rw [if_neg isCallee, Function.update_of_ne isCallee]
      by_cases isCaller : w = u
      · rw [if_pos isCaller, isCaller, Function.update_self]
      · rw [if_neg isCaller, Function.update_of_ne isCaller]
  have places : ∀ w, d.called u v w = if w = v then some (.calling u)
      else if w = u then some (.calling v) else d w := by
    intro w
    unfold Directory.called
    by_cases isCallee : w = v
    · by_cases isCaller : w = u
      · subst isCallee
        subst isCaller
        simp
      · rw [if_neg isCaller, if_pos isCallee, if_pos isCallee]
    · simp only [if_neg isCallee]
  refine ⟨fun w => ?_, fun a b => ?_, fun w r => ?_, fun a b partner => ?_, fun w r inside => ?_⟩
  · rw [places, peers]
    split
    · exact iff_of_false nofun (by simp)
    · split
      · exact iff_of_false nofun (by simp)
      · exact shows.idle w
  · rw [places, sessions]
    split
    · simp
    · split
      · simp
      · exact shows.calling a b
  · rw [places, members]
    split
    · next isCallee => exact iff_of_false nofun (isCallee ▸ shows.outside_of_idle callee)
    · split
      · next isCaller => exact iff_of_false nofun (isCaller ▸ shows.outside_of_idle caller)
      · exact shows.inside w r
  · rw [sessions] at partner
    rw [peers]
    split
    · exact ⟨_, rfl⟩
    · next notCallee =>
        split
        · exact ⟨_, rfl⟩
        · next notCaller =>
            rw [if_neg notCallee, if_neg notCaller] at partner
            exact shows.busy a b partner
  · rw [members] at inside
    have notCallee : w ≠ v := by
      rintro rfl
      exact shows.outside_of_idle callee inside
    have notCaller : w ≠ u := by
      rintro rfl
      exact shows.outside_of_idle caller inside
    rw [peers, if_neg notCallee, if_neg notCaller]
    exact shows.seated w r inside

theorem enterRoom (shows : Shows srv d) {peer : Peer} {set : PySet Uid} (free : d u = some .idle)
    (found : srv.rooms room = some set) (nonempty : room ≠ []) (notSession : room ≠ inSession) :
    Shows ((srv.writePeer u (some { peer with status := some room })).writeRoom room (set.add u))
      (Function.update d u (some (.inside room))) := by
  have members : ∀ w r, w ∈ ((srv.writePeer u (some { peer with status := some room })).writeRoom
      room (set.add u)).members r ↔ (w = u ∧ r = room) ∨ w ∈ srv.members r := by
    intro w r
    rw [members_writeRoom, members_writePeer]
    by_cases here : r = room
    · subst here
      rw [Function.update_self, PySet.elems_add, Finset.mem_insert, members_of_rooms found]
      simp
    · rw [Function.update_of_ne here]
      simp [here]
  refine ⟨fun w => ?_, fun a b => ?_, fun w r => ?_, fun a b linked => ?_, fun w r inside => ?_⟩
  · rw [peers_writeRoom, peers_writePeer]
    by_cases self : w = u
    · subst self
      rw [Function.update_self, Function.update_self]
      simp
    · rw [Function.update_of_ne self, Function.update_of_ne self]
      exact shows.idle w
  · rw [sessions_writeRoom, sessions_writePeer]
    by_cases self : a = u
    · subst self
      rw [Function.update_self, shows.unlinked_of_idle free]
      exact iff_of_false (by simp) nofun
    · rw [Function.update_of_ne self]
      exact shows.calling a b
  · rw [members]
    by_cases self : w = u
    · subst self
      rw [Function.update_self]
      constructor
      · rintro ⟨⟩
        exact Or.inl ⟨rfl, rfl⟩
      · rintro (⟨-, rfl⟩ | inside)
        · rfl
        · exact absurd inside (shows.outside_of_idle free)
    · rw [Function.update_of_ne self, shows.inside w r]
      simp [self]
  · have other : a ≠ u := by
      rintro rfl
      cases (shows.unlinked_of_idle free).symm.trans linked
    rw [peers_writeRoom, peers_writePeer, Function.update_of_ne other]
    exact shows.busy a b linked
  · rw [peers_writeRoom, peers_writePeer]
    rcases (members w r).mp inside with ⟨rfl, rfl⟩ | before
    · rw [Function.update_self]
      exact ⟨nonempty, notSession, _, rfl⟩
    · have other : w ≠ u := by
        rintro rfl
        exact shows.outside_of_idle free before
      rw [Function.update_of_ne other]
      exact shows.seated w r before

theorem leaveRoom (shows : Shows srv d) {set : PySet Uid} (there : d u = some (.inside room))
    (found : srv.rooms room = some set) :
    Shows (srv.writeRoom room (set.remove u)) (d.departed u) := by
  have members : ∀ w r, w ∈ (srv.writeRoom room (set.remove u)).members r ↔
      w ∈ srv.members r ∧ ¬ (w = u ∧ r = room) := by
    intro w r
    rw [members_writeRoom]
    by_cases here : r = room
    · subst here
      rw [Function.update_self, PySet.elems_remove, Finset.mem_erase, members_of_rooms found]
      tauto
    · rw [Function.update_of_ne here]
      simp [here]
  rw [Directory.departed_of_alone (by simp [there])]
  refine ⟨fun w => ?_, fun a b => ?_, fun w r => ?_, shows.busy, fun w r inside => ?_⟩
  · rw [peers_writeRoom]
    by_cases self : w = u
    · subst self
      rw [Function.update_self]
      obtain ⟨-, -, ws, seated⟩ := shows.seated w room ((shows.inside w room).mp there)
      exact iff_of_false nofun (by simp [seated])
    · rw [Function.update_of_ne self]
      exact shows.idle w
  · rw [sessions_writeRoom]
    by_cases self : a = u
    · subst self
      rw [Function.update_self, ← shows.calling, there]
      exact iff_of_false nofun (by simp)
    · rw [Function.update_of_ne self]
      exact shows.calling a b
  · rw [members]
    by_cases self : w = u
    · subst self
      rw [Function.update_self, ← shows.inside, there]
      refine iff_of_false nofun ?_
      rintro ⟨same, elsewhere⟩
      cases same
      exact elsewhere ⟨rfl, rfl⟩
    · rw [Function.update_of_ne self, shows.inside w r]
      simp [self]
  · exact shows.seated w r ((members w r).mp inside).1

/-- A session is cut at both ends, and at most the partner loses its entry with that. -/
theorem unlink (shows : Shows srv d) (symmetric : d.Symmetric) (linked : srv.sessions u = some v)
    (sessions : srv'.sessions = Function.update (Function.update srv.sessions u none) v none)
    (members : srv'.members = srv.members)
    (peers : ∀ w, srv'.peers w = srv.peers w ∨ (w = v ∧ srv'.peers w = none)) :
    Shows srv' (d.departed u) := by
  have calls := (shows.calling u v).mpr linked
  have busyAt : ∀ {w}, w = u ∨ w = v → ∃ ws, srv.peers w = some ⟨ws, some inSession⟩ := by
    rintro w (rfl | rfl)
    · exact shows.busy w v linked
    · exact shows.busy w u ((shows.calling w u).mp (symmetric u w calls))
  have outside : ∀ {w r}, w = u ∨ w = v → w ∉ srv.members r := by
    intro w r either inside
    obtain ⟨ws, busy⟩ := busyAt either
    obtain ⟨-, notSession, ws', seated⟩ := shows.seated w r inside
    rw [busy, Option.some.injEq, Peer.mk.injEq, Option.some.injEq] at seated
    exact notSession seated.2.symm
  have places : ∀ w, d.departed u w = if w = u ∨ w = v then none else d w := by
    intro w
    unfold Directory.departed
    rw [calls]
    simp only [Option.some.injEq, Place.calling.injEq, eq_comm (a := v)]
  have partners : ∀ w, srv'.sessions w = if w = u ∨ w = v then none else srv.sessions w := by
    intro w
    rw [sessions]
    by_cases callee : w = v
    · simp [callee]
    · by_cases caller : w = u
      · subst caller
        rw [Function.update_of_ne callee, Function.update_self, if_pos (Or.inl rfl)]
      · simp [callee, caller]
  have kept : ∀ {w}, ¬ (w = u ∨ w = v) → srv'.peers w = srv.peers w := fun neither =>
    (peers _).resolve_right fun gone => neither (Or.inr gone.1)
  refine ⟨fun w => ?_, fun a b => ?_, fun w r => ?_, fun a b partner => ?_, fun w r inside => ?_⟩
  · rw [places]
    split
    · next either =>
        refine iff_of_false nofun ?_
        rintro ⟨ws, free⟩
        obtain ⟨ws', busy⟩ := busyAt either
        rcases peers w with same | ⟨-, gone⟩
        · rw [free, busy] at same
          cases same
        · cases free.symm.trans gone
    · next neither =>
        rw [kept neither]
        exact shows.idle w
  · rw [places, partners]
    split
    · exact iff_of_false nofun nofun
    · exact shows.calling a b
  · rw [places, members]
    split
    · next either => exact iff_of_false nofun (outside either)
    · exact shows.inside w r
  · rw [partners] at partner
    split at partner
    · cases partner
    · next neither =>
        rw [kept neither]
        exact shows.busy a b partner
  · rw [members] at inside
    rw [kept fun either => outside either inside]
    exact shows.seated w r inside

/-! ## Departures -/

/-- Whoever is in a session departs when it is taken apart, and its partner with it. -/
theorem cleanSession (shows : Shows srv d) (symmetric : d.Symmetric) {wso : Option ConnId}
    (cleaned : SessionCleaned srv u (srv', wso)) :
    (srv.sessions u = none ∧ srv' = srv ∧ wso = none) ∨
      (d u ≠ none ∧ Shows srv' (d.departed u)) := by
  have present : ∀ {other}, srv.sessions u = some other → d u ≠ none := by
    intro other linked
    rw [(shows.calling u other).mpr linked]
    exact nofun
  cases cleaned with
  | unlinked alone => exact Or.inl ⟨alone, rfl, rfl⟩
  | @oneSided other linked noBack =>
      have back := (shows.calling other u).mp (symmetric u other ((shows.calling u other).mpr linked))
      have self : other = u := noBack.resolve_right (by simp [back])
      subst self
      refine Or.inr ⟨present linked, shows.unlink symmetric linked ?_ rfl fun w => Or.inl rfl⟩
      rw [Function.update_idem]
      rfl
  | partnerGone linked different linkedBack absent =>
      exact Or.inr ⟨present linked, shows.unlink symmetric linked rfl rfl fun w => Or.inl rfl⟩
  | @partner other back peer linked different linkedBack registered =>
      refine Or.inr ⟨present linked, shows.unlink symmetric linked rfl rfl fun w => ?_⟩
      rw [peers_writePeer]
      by_cases gone : w = other
      · exact Or.inr ⟨gone, by rw [gone, Function.update_self]⟩
      · exact Or.inl (Function.update_of_ne gone ..)

/-- The tables change no more while a departed member is announced. -/
theorem announceLeft (shows : Shows srv d) (absent : d u = none) {ws : ConnId} {it : Iter Uid}
    {t : Turn} (announced : LeftAnnounced srv u ws room it t) : Shows t.server d := by
  cases announced with
  | finished found same all => exact shows.deletePeer_absent absent ws
  | _ => exact shows

theorem removeEntry (shows : Shows srv d) (alone : srv.sessions u = none) {t : Turn}
    (removed : EntryRemoved srv u t) : ∃ d', Departs d u d' ∧ Shows t.server d' := by
  have noCall : ∀ b, d u ≠ some (.calling b) := by
    intro b calls
    cases alone.symm.trans ((shows.calling u b).mp calls)
  -- without a room the uid is idle, or has departed
  have cases_of_outside : (∀ r, u ∉ srv.members r) → d u = none ∨ d u = some .idle := by
    intro outside
    cases there : d u with
    | none => exact Or.inl rfl
    | some place =>
        cases place with
        | idle => exact Or.inr rfl
        | calling b => exact absurd there (noCall b)
        | inside r => exact absurd ((shows.inside u r).mp there) (outside r)
  have absent_of_outside : (∀ r, u ∉ srv.members r) → (∀ ws, srv.peers u ≠ some ⟨ws, none⟩) →
      d u = none := by
    intro outside busy
    refine (cases_of_outside outside).resolve_right fun free => ?_
    obtain ⟨ws, found⟩ := (shows.idle u).mp free
    exact busy ws found
  have elsewhere : ∀ {peer : Peer} {r r'}, srv.peers u = some peer → IsRoom peer.status r →
      u ∈ srv.members r' → r' = r := by
    intro peer r r' registered member inside
    obtain ⟨-, -, ws, seated⟩ := shows.seated u r' inside
    cases registered.symm.trans seated
    exact Option.some.inj member.1
  have busy_of_room : ∀ {peer : Peer} {r}, srv.peers u = some peer → IsRoom peer.status r →
      ∀ ws, srv.peers u ≠ some ⟨ws, none⟩ := by
    intro peer r registered member ws found
    cases registered.symm.trans found
    cases member.1
  cases removed with
  | absent unregistered =>
      refine ⟨d, .gone (absent_of_outside (fun r inside => ?_) (by simp [unregistered])), shows⟩
      obtain ⟨-, -, ws, seated⟩ := shows.seated u r inside
      cases unregistered.symm.trans seated
  | @plain peer registered outside =>
      have notMember : ∀ r, u ∉ srv.members r := by
        intro r inside
        obtain ⟨nonempty, notSession, ws, seated⟩ := shows.seated u r inside
        cases registered.symm.trans seated
        exact outside r ⟨rfl, nonempty, notSession⟩
      have deleted := shows.deletePeer alone notMember peer.ws
      rcases cases_of_outside notMember with absent | free
      · exact ⟨d, .gone absent, shows.deletePeer_absent absent peer.ws⟩
      · refine ⟨_, .now (by simp [free]), ?_⟩
        rwa [Directory.departed_of_alone noCall]
  | noRoom registered member missing =>
      refine ⟨d, .gone (absent_of_outside (fun r inside => ?_) (busy_of_room registered member)),
        shows⟩
      cases elsewhere registered member inside
      simp [WebRTCSimpleServer.members, missing] at inside
  | @notListed peer r set registered member found unlisted =>
      have absent : d u = none := by
        refine absent_of_outside (fun r' inside => ?_) (busy_of_room registered member)
        cases elsewhere registered member inside
        rw [members_of_rooms found] at inside
        exact unlisted inside
      exact ⟨d, .gone absent, shows.deletePeer_absent absent peer.ws⟩
  | @leaves peer r set t registered member found listed announced =>
      have there : d u = some (.inside r) :=
        (shows.inside u r).mpr (by rwa [members_of_rooms found])
      exact ⟨_, .now (by simp [there]),
        (shows.leaveRoom there found).announceLeft (Directory.departed_self d u) announced⟩

theorem removePeer (shows : Shows srv d) (symmetric : d.Symmetric) {t : Turn}
    (removed : Removed srv u t) : ∃ d', Departs d u d' ∧ Shows t.server d' := by
  cases removed with
  | partner cleaned =>
      rcases shows.cleanSession symmetric cleaned with ⟨-, -, none⟩ | ⟨present, after⟩
      · cases none
      · exact ⟨_, .now present, after⟩
  | entry cleaned removed =>
      rcases shows.cleanSession symmetric cleaned with ⟨alone, rfl, -⟩ | ⟨present, after⟩
      · exact shows.removeEntry alone removed
      · have absent := Directory.departed_self d u
        obtain ⟨d', departs, last⟩ := after.removeEntry (after.unlinked_of_absent absent) removed
        cases departs with
        | gone _ => exact ⟨_, .now present, last⟩
        | now again => exact absurd absent again

end Shows

/-! ## One step -/

/-- Each uid has one handler, and a command takes effect on uids that are idle still. -/
structure Uncontended (w : World) (act : Act) : Prop where
  alone : RegistersAlone w act
  session : ∀ k pick u roomId callee, act = .resume k false pick →
    w.phase k = .running u roomId (.sessionOk callee) →
    ∀ v, v = u ∨ v = callee → ∀ peer, w.server.peers v = some peer → peer.status = none
  room : ∀ k pick u roomId room, act = .resume k false pick →
    w.phase k = .running u roomId (.roomOk room) →
    ∀ peer, w.server.peers u = some peer → peer.status = none

/-- Nothing happens in the directory, or what the uid does. -/
inductive Moves (d : Presence) (u : Uid) : Presence → Prop where
  | stays : Moves d u d
  | event {e d'} (subject : e.subject = u) (moves : d.step e = some d') : Moves d u d'

section Turns

variable {w w' : World} {act : Act} {t : Turn} {u v : Uid} {roomId : Option RoomId} {body : Body}
  {d d' : Presence}

theorem Moves.present (moves : Moves d u d') (present : d' v ≠ none) : v = u ∨ d v ≠ none := by
  cases moves with
  | stays => exact Or.inr present
  | event subject moves => exact subject ▸ Directory.present_of_step moves present

theorem Departs.moves (departs : Departs d u d') : Moves d u d' := by
  cases departs with
  | gone absent => exact .stays
  | now present => exact .event rfl (Directory.step_departs present)

/-- Of a room that is about to be entered. -/
theorem Runs.enterable (runs : Runs w u roomId act body) :
    body.Next u fun srv phase => phase.Enterable srv := by
  have announced : ∀ {srv room it}, JoinAnnounced srv u roomId room it body →
      body.Next u fun srv phase => phase.Enterable srv := by
    intro srv room it announced
    cases announced <;> trivial
  cases runs with
  | message waiting handled =>
      cases handled with
      | newRoom registered idle command fields valid notSession absent lists =>
          exact ⟨valid.ne_nil, notSession, by simp⟩
      | oldRoom registered idle command fields valid notSession found fresh lists =>
          exact ⟨valid.ne_nil, notSession, by simp [found]⟩
      | _ => trivial
  | room mayReturn waiting entered =>
      cases entered with
      | entered registered found announced' => exact announced announced'
      | _ => trivial
  | joined mayReturn waiting announced' => exact announced announced'
  | _ => trivial

theorem Fires.enterable (fires : Fires w act t) : t.phase.Enterable t.server := by
  have departed : ∀ {uid}, t.phase.Departing uid → t.phase.Enterable t.server := by
    rintro uid (⟨point, leaving⟩ | done)
    · rw [leaving]
      trivial
    · rw [done]
      trivial
  cases fires with
  | loops runs => exact runs.enterable
  | sends runs => exact runs.enterable
  | leaves runs removed => exact departed removed.departing
  | partnerClosed mayReturn waiting removed => exact departed removed.departing
  | leftSent mayReturn waiting announced => exact departed announced.departing
  | _ => trivial

/-- A stretch of a handler's loop is one event, or none. -/
theorem Shows.runs (shows : Shows w.server d) (enterable : (w.phase act.conn).Enterable w.server)
    (uncontended : Uncontended w act) (runs : Runs w u roomId act body) :
    ∃ d', Moves d u d' ∧ Shows body.server d' := by
  have free : ∀ {v peer}, w.server.peers v = some peer → peer.status = none → d v = some .idle := by
    rintro v ⟨ws, status⟩ found rfl
    exact (shows.idle v).mpr ⟨ws, found⟩
  have same : ∀ {srv : WebRTCSimpleServer}, srv = w.server → ∃ d', Moves d u d' ∧ Shows srv d' :=
    fun equal => ⟨d, .stays, equal ▸ shows⟩
  cases runs with
  | message waiting handled =>
      refine ⟨d, .stays, shows.congr handled.peers_eq handled.sessions_eq ?_⟩
      cases handled with
      | newRoom registered idle command fields valid notSession absent lists =>
          exact members_newRoom absent
      | _ => rfl
  | @session k pick callee srv mayReturn waiting linked =>
      obtain ⟨peer, calleePeer, hcaller, hcallee, -⟩ := registerSession_eq linked
      have idle := uncontended.session k pick u roomId callee rfl waiting
      have caller := free hcaller (idle u (Or.inl rfl) peer hcaller)
      have called := free hcallee (idle callee (Or.inr rfl) calleePeer hcallee)
      exact ⟨_, .event (e := .calls u callee) rfl (Directory.step_calls caller called),
        shows.registerSession caller called linked⟩
  | @room k pick room body mayReturn waiting entered =>
      have exists' : (w.phase k).Enterable w.server := enterable
      rw [waiting] at exists'
      cases entered with
      | unregistered absent => exact same rfl
      | noRoom registered missing => exact absurd missing exists'.2.2
      | @entered peer set body registered found announced =>
          have idle := free registered
            (uncontended.room k pick u roomId room rfl waiting peer registered)
          rw [announced.server_eq]
          exact ⟨_, .event (e := .enters u room) rfl (Directory.step_enters idle room),
            shows.enterRoom idle found exists'.1 exists'.2.1⟩
  | joined mayReturn waiting announced => exact same announced.server_eq
  | _ => exact same rfl

end Turns

/-! ## Every run -/

/-- The directory that the tables show can come about, and a handler runs for each uid in it. -/
structure Attended (w : World) (d : Presence) : Prop where
  reached : (Directory.machine Uid RoomId).Reachable Machine.anyAction d
  shows : Shows w.server d
  handlers : OneHandler w
  entering : ∀ k, (w.phase k).Enterable w.server
  served : ∀ u, d u ≠ none → ∃ k roomId point, w.phase k = .running u roomId point

namespace Attended

variable {w w' : World} {act : Act} {t : Turn} {d : Presence} {k : ConnId} {u : Uid}

theorem init : Attended World.empty fun _ => none where
  reached := .refl
  shows := .empty
  handlers := .init
  entering _ := trivial
  served _ present := absurd rfl present

/-- Whose handler leaves has departed. -/
theorem absent_of_leaving (inv : Attended w d) {point : LeavePoint}
    (leaving : w.phase k = .leaving u point) : d u = none := by
  by_contra present
  obtain ⟨j, roomId, point', running⟩ := inv.served u present
  have same := inv.handlers.unique j k u (congrArg Phase.past? running)
    (congrArg Phase.past? leaving)
  subst same
  cases running.symm.trans leaving

/-- A uid that no handler works for is absent. -/
theorem absent_of_alone (inv : Attended w d) (alone : ∀ j, (w.phase j).past? ≠ some u) :
    d u = none := by
  by_contra present
  obtain ⟨j, roomId, point, running⟩ := inv.served u present
  exact alone j (congrArg Phase.past? running)

/-- What a turn does to the directory. -/
structure Turned (w : World) (act : Act) (d : Presence) (t : Turn) (d' : Presence) : Prop where
  shows : Shows t.server d'
  moves : d' = d ∨ ∃ u, (w.phase act.conn).uid? = some u ∧ Moves d u d'
  served : ∀ v, d' v ≠ none → (d v ≠ none ∧ (w.phase act.conn).past? ≠ some v) ∨
    ∃ roomId point, t.phase = .running v roomId point

theorem turned_of_loop (inv : Attended w d) {roomId roomId' : Option RoomId} {body : Body}
    {point : LoopPoint} (uncontended : Uncontended w act) (runs : Runs w u roomId act body)
    (server : t.server = body.server) (phase : t.phase = .running u roomId' point) :
    ∃ d', Turned w act d t d' := by
  obtain ⟨d', moves, shows⟩ := inv.shows.runs (inv.entering act.conn) uncontended runs
  refine ⟨d', server ▸ shows, Or.inr ⟨u, Phase.uid_of_past runs.past, moves⟩, fun v present => ?_⟩
  rcases moves.present present with rfl | before
  · exact Or.inr ⟨_, _, phase⟩
  · by_cases self : v = u
    · subst self
      exact Or.inr ⟨_, _, phase⟩
    · refine Or.inl ⟨before, ?_⟩
      rw [runs.past]
      exact fun same => self (Option.some.inj same).symm

theorem turned_of_departs {d' : Presence} (past : (w.phase act.conn).past? = some u)
    (departs : Departs d u d') (shows : Shows t.server d') : Turned w act d t d' := by
  refine ⟨shows, Or.inr ⟨u, Phase.uid_of_past past, departs.moves⟩, fun v present => Or.inl ?_⟩
  have other : v ≠ u := by
    rintro rfl
    exact present departs.absent
  refine ⟨(departs.moves.present present).resolve_left other, ?_⟩
  rw [past]
  exact fun same => other (Option.some.inj same).symm

/-- The tables stay, and whoever the handler works for runs on or has departed. -/
theorem turned_of_same (inv : Attended w d) (server : t.server = w.server)
    (own : ∀ v, (w.phase act.conn).past? = some v →
      d v = none ∨ ∃ roomId point, t.phase = .running v roomId point) :
    Turned w act d t d := by
  refine ⟨server ▸ inv.shows, Or.inl rfl, fun v present => ?_⟩
  by_cases self : (w.phase act.conn).past? = some v
  · exact Or.inr ((own v self).resolve_left present)
  · exact Or.inl ⟨present, self⟩

theorem turn (inv : Attended w d) (uncontended : Uncontended w act) (fires : Fires w act t) :
    ∃ d', Turned w act d t d' := by
  have symmetric := Directory.symmetric_of_reachable inv.reached
  have unnamed : ∀ {k phase}, w.phase k = phase → phase.past? = none →
      ∀ v, (w.phase k).past? = some v →
        d v = none ∨ ∃ roomId point, t.phase = .running v roomId point := by
    intro k phase waiting nobody v past
    rw [waiting, nobody] at past
    cases past
  have leaves : ∀ {k u point}, w.phase k = .leaving u point →
      ∀ v, (w.phase k).past? = some v →
        d v = none ∨ ∃ roomId point, t.phase = .running v roomId point := by
    intro k u point leaving v past
    rw [leaving] at past
    cases past
    exact Or.inl (inv.absent_of_leaving leaving)
  cases fires with
  | @registered k pick u mayReturn waiting =>
      have absent := inv.absent_of_alone (uncontended.alone k pick u rfl waiting)
      refine ⟨_, inv.shows.register absent k,
        Or.inr ⟨u, congrArg Phase.uid? waiting,
          .event (e := .arrives u) rfl (Directory.step_arrives absent)⟩, fun v present => ?_⟩
      by_cases self : v = u
      · subst self
        exact Or.inr ⟨_, _, rfl⟩
      · rw [Function.update_of_ne self] at present
        refine Or.inl ⟨present, ?_⟩
        rw [Act.conn, waiting]
        simp [Phase.past?]
  | timeout waiting =>
      refine ⟨d, inv.turned_of_same rfl fun v past => Or.inr ?_⟩
      rw [Act.conn, waiting] at past
      cases past
      exact ⟨_, _, rfl⟩
  | loops runs => exact inv.turned_of_loop uncontended runs rfl rfl
  | sends runs => exact inv.turned_of_loop uncontended runs rfl rfl
  | leaves runs removed =>
      have same := runs.raise_server
        (fun room waiting => by
          have enterable := inv.entering act.conn
          rw [waiting] at enterable
          exact Option.ne_none_iff_exists'.mp enterable.2.2)
        (fun room pid inside => (inv.shows.seated pid room inside).2.2.elim fun _ found => ⟨_, found⟩)
      subst same
      obtain ⟨d', departs, shows⟩ := inv.shows.removePeer symmetric removed
      exact ⟨d', turned_of_departs runs.past departs shows⟩
  | partnerClosed mayReturn waiting removed =>
      have absent := inv.absent_of_leaving waiting
      obtain ⟨d', departs, shows⟩ :=
        inv.shows.removeEntry (inv.shows.unlinked_of_absent absent) removed
      exact ⟨d', turned_of_departs (congrArg Phase.past? waiting) departs shows⟩
  | leftSent mayReturn waiting announced =>
      have absent := inv.absent_of_leaving waiting
      exact ⟨d, turned_of_departs (congrArg Phase.past? waiting) (.gone absent)
        (inv.shows.announceLeft absent announced)⟩
  | leaveRaised mayRaise waiting => exact ⟨d, inv.turned_of_same rfl (leaves waiting)⟩
  | finished waiting => exact ⟨d, inv.turned_of_same rfl (leaves waiting)⟩
  | greeted waiting fields absent word => exact ⟨d, inv.turned_of_same rfl (unnamed waiting rfl)⟩
  | refused waiting => exact ⟨d, inv.turned_of_same rfl (unnamed waiting rfl)⟩
  | helloFailed waiting => exact ⟨d, inv.turned_of_same rfl (unnamed waiting rfl)⟩
  | helloClosed unusable waiting => exact ⟨d, inv.turned_of_same rfl (unnamed waiting rfl)⟩
  | rejected waiting => exact ⟨d, inv.turned_of_same rfl (unnamed waiting rfl)⟩
  | ackFailed mayRaise waiting => exact ⟨d, inv.turned_of_same rfl (unnamed waiting rfl)⟩

/-- What a turn leaves behind. -/
theorem after (inv : Attended w d) (uncontended : Uncontended w act) (fires : Fires w act t)
    (handlers : OneHandler (w.apply act.conn t)) :
    ∃ d', (d' = d ∨ ∃ u, (w.phase act.conn).uid? = some u ∧ Moves d u d') ∧
      Attended (w.apply act.conn t) d' := by
  obtain ⟨d', turned⟩ := inv.turn uncontended fires
  have rooms : RoomsKept w.server t.server := (RoomsGrow.fires fires).kept
  have reached : (Directory.machine Uid RoomId).Reachable Machine.anyAction d' := by
    rcases turned.moves with rfl | ⟨u, -, moves⟩
    · exact inv.reached
    · cases moves with
      | stays => exact inv.reached
      | event subject moves => exact .step inv.reached trivial moves
  refine ⟨d', turned.moves, ⟨reached, ?_, handlers, fun k => ?_, fun v present => ?_⟩⟩
  · rw [World.apply_server]
    exact turned.shows
  · rw [World.apply_server]
    by_cases self : k = act.conn
    · rw [self, World.apply_phase_self]
      exact fires.enterable
    · rw [World.apply_phase_of_ne _ _ _ self]
      exact (inv.entering k).mono rooms
  · rcases turned.served v present with ⟨before, other⟩ | ⟨roomId, point, running⟩
    · obtain ⟨k, roomId, point, running⟩ := inv.served v before
      refine ⟨k, roomId, point, ?_⟩
      rw [World.apply_phase_of_ne, running]
      rintro rfl
      exact other (congrArg Phase.past? running)
    · refine ⟨act.conn, roomId, point, ?_⟩
      rw [World.apply_phase_self, running]

/-- One step is at most one event, of the uid whose handler it resumes. -/
theorem step (inv : Attended w d) (uncontended : Uncontended w act) (h : w.step act = some w') :
    ∃ d', (d' = d ∨ ∃ u, (w.phase act.conn).uid? = some u ∧ Moves d u d') ∧ Attended w' d' := by
  have handlers := inv.handlers.step uncontended.alone h
  rcases step_cases h with ⟨k, rfl, absent, rfl⟩ | ⟨k, rfl, usable, rfl⟩ | ⟨t, fires, rfl⟩
  · refine ⟨d, Or.inl rfl, inv.reached, inv.shows, handlers, fun j => ?_, fun v present => ?_⟩
    · rw [World.phase_setConn]
      split
      · trivial
      · exact inv.entering j
    · obtain ⟨j, roomId, point, running⟩ := inv.served v present
      refine ⟨j, roomId, point, ?_⟩
      rw [World.phase_setConn, if_neg, running]
      rintro rfl
      cases absent.symm.trans running
  · refine ⟨d, Or.inl rfl, inv.reached, inv.shows, handlers, fun j => ?_, fun v present => ?_⟩
    · rw [World.phase_lose]
      exact inv.entering j
    · obtain ⟨j, roomId, point, running⟩ := inv.served v present
      refine ⟨j, roomId, point, ?_⟩
      rw [World.phase_lose, running]
  · exact inv.after uncontended fires handlers

theorem of_reachable (run : interleaved.Reachable Uncontended w) : ∃ d, Attended w d :=
  run.invariant (P := fun w => ∃ d, Attended w d) ⟨_, .init⟩ fun _ _ _ ⟨_, inv⟩ uncontended h =>
    let ⟨d', _, after⟩ := inv.step uncontended h
    ⟨d', after⟩

end Attended

/--
However the handlers interleave, the tables agree on a directory that some
events lead to, every uid in it has one running handler, and the next step is
one event of the uid whose handler it resumes, or leaves the directory alone.
-/
theorem server_refines_directory {w : World} (run : interleaved.Reachable Uncontended w) :
    Shows w.server w.server.directory ∧
      (Directory.machine Uid RoomId).Reachable Machine.anyAction w.server.directory ∧
      (∀ u, w.server.directory u ≠ none → ∃ k, (∃ roomId point,
        w.phase k = .running u roomId point) ∧ ∀ j, (w.phase j).past? = some u → j = k) ∧
      ∀ act w', Uncontended w act → w.step act = some w' →
        w'.server.directory = w.server.directory ∨ ∃ e,
          (w.phase act.conn).uid? = some e.subject ∧
            w.server.directory.step e = some w'.server.directory := by
  obtain ⟨d, inv⟩ := Attended.of_reachable run
  obtain rfl := inv.shows.eq_directory
  refine ⟨inv.shows, inv.reached, fun u present => ?_, fun act w' uncontended h => ?_⟩
  · obtain ⟨k, roomId, point, running⟩ := inv.served u present
    refine ⟨k, ⟨roomId, point, running⟩, fun j past => ?_⟩
    exact inv.handlers.unique j k u past (congrArg Phase.past? running)
  · obtain ⟨d', moves, after⟩ := inv.step uncontended h
    rw [after.shows.eq_directory]
    rcases moves with same | ⟨u, subject, moves⟩
    · exact Or.inl same
    · cases moves with
      | stays => exact Or.inl rfl
      | event named moves => exact Or.inr ⟨_, named ▸ subject, moves⟩

/-- `Uncontended` on the first `n` connections, the only ones in use. -/
def uncontendedBelow (n : Nat) (w : World) (act : Act) : Bool :=
  act.conn < n && aloneBelow n w act && match act with
    | .resume k false _ =>
        match w.phase k with
        | .running u _ (.sessionOk callee) =>
            (w.server.peers u).all (·.status = none) && (w.server.peers callee).all (·.status = none)
        | .running u _ (.roomOk _) => (w.server.peers u).all (·.status = none)
        | _ => true
    | _ => true

theorem uncontended_of_below {n : Nat} {w : World} {act : Act} (absent : AbsentFrom n w)
    (ok : uncontendedBelow n w act = true) : Uncontended w act := by
  unfold uncontendedBelow at ok
  obtain ⟨⟨-, alone⟩, idle⟩ := (Bool.and_eq_true_iff.mp ok).imp_left Bool.and_eq_true_iff.mp
  refine ⟨registersAlone_of_below absent alone, ?_, ?_⟩
  · rintro k pick u roomId callee rfl waiting v either peer found
    simp only [waiting, Bool.and_eq_true, Option.all_eq_true, decide_eq_true_eq] at idle
    rcases either with rfl | rfl
    · exact idle.1 peer found
    · exact idle.2 peer found
  · rintro k pick u roomId room rfl waiting peer found
    simp only [waiting, Option.all_eq_true, decide_eq_true_eq] at idle
    exact idle peer found

/-- Four clients are in a call and in a room, and a lost connection ends the call. -/
theorem server_refines_directory_four :
    ∃ w w' : World, w.step (.closed 1 none) = some w' ∧ Shows w.server w.server.directory ∧
      w.server.directory "x".toList = some (.calling "y".toList) ∧
      w.server.directory "z".toList = some (.inside "r".toList) ∧
      w'.server.directory "x".toList = none ∧
      ∃ e, e.subject = "y".toList ∧ w.server.directory.step e = some w'.server.directory := by
  obtain ⟨w, run, absent, test⟩ := @exists_below 4 (uncontendedBelow 4) Uncontended
    (fun w act ok => of_decide_eq_true (Bool.and_eq_true_iff.mp (Bool.and_eq_true_iff.mp ok).1).1)
    (fun w act absent ok => uncontended_of_below absent ok)
    (greeting 0 "x" ++ greeting 1 "y" ++ greeting 2 "z" ++ greeting 3 "t" ++
      [.recv 0 "SESSION y".toList [] none, .recv 2 "ROOM r".toList [] none,
        .resume 0 false none, .recv 3 "ROOM r".toList [] none, .resume 2 false none,
        .resume 3 false (some "z".toList), .lose 1, .lose 2])
    (fun w => w.server.directory "x".toList = some (.calling "y".toList) &&
      w.server.directory "z".toList = some (.inside "r".toList) &&
      (w.phase 1).uid? = some "y".toList && (w.step (.closed 1 none)).any fun w' =>
        w'.server.directory "x".toList = none) (by decide)
  simp only [Bool.and_eq_true, decide_eq_true_eq, Option.any_eq_true] at test
  obtain ⟨⟨⟨call, room⟩, own⟩, w', h, gone⟩ := test
  obtain ⟨shows, -, -, refines⟩ := server_refines_directory run
  have uncontended : Uncontended w (.closed 1 none) := ⟨nofun, nofun, nofun⟩
  refine ⟨w, w', h, shows, call, room, gone, ?_⟩
  rcases refines _ w' uncontended h with same | ⟨e, subject, moves⟩
  · rw [same, call] at gone
    cases gone
  · exact ⟨e, Option.some.inj (subject.symm.trans own), moves⟩

end GstWebrtc.Signalling
