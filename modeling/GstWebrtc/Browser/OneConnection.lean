import GstWebrtc.Browser.Page

/-!
# One connection to the server

A WebSocket that fails schedules two reconnections, one for its `error` and one
for its `close`.  While none fails, at most one WebSocket or timer is alive, and
`ws_conn` is the WebSocket.
-/

namespace GstWebrtc.Browser

open GstWebrtc.Base

/-- Connecting or open. -/
def WebSocket.live (ws : WebSocket) : Bool :=
  ws.readyState = .connecting || ws.readyState = .opened

/-- The page has registered with the server on this connection. -/
def WebSocket.registered (ws : WebSocket) : Bool :=
  ws.readyState = .opened && !ws.hellos.isEmpty

structure OneConnection (page : Page) : Prop where
  alive : page.sockets.countP WebSocket.live + page.timers.length ≤ 1
  /-- The live connection is `ws_conn`. -/
  denoted : ∀ (socket : Nat) (ws : WebSocket), page.sockets[socket]? = some ws → ws.live = true →
    page.wsConn = some socket
  /-- The page is registered on one connection, and under one id there. -/
  registered : ∀ (first second : Nat) (ws other : WebSocket), page.sockets[first]? = some ws →
    page.sockets[second]? = some other → ws.registered = true → other.registered = true →
    first = second ∧ ws.hellos.length = 1

/-! ## The network of the page -/

/-- Nothing has happened to the WebSockets and the timers. -/
structure SameNet (page next : Page) : Prop where
  sockets : next.sockets = page.sockets
  wsConn : next.wsConn = page.wsConn
  timers : next.timers = page.timers

namespace Page

variable {setup : Setup} {page next : Page}

theorem sockets_setReadyState (socket other : Nat) (state : ReadyState) :
    (page.setReadyState socket state).sockets[other]? =
      page.sockets[other]?.map fun ws =>
        if socket = other then { ws with readyState := state } else ws := by
  unfold setReadyState
  rw [List.getElem?_modify]
  cases page.sockets[other]? with
  | none => rfl
  | some ws =>
      change some _ = some _
      congr 1

theorem readyState_some {socket : Nat} {state : ReadyState}
    (h : page.readyState socket = some state) :
    ∃ ws, page.sockets[socket]? = some ws ∧ ws.readyState = state :=
  Option.map_eq_some_iff.mp h

theorem resetState_of_net (same : SameNet page next) : SameNet page.resetState next.resetState := by
  obtain ⟨sockets, wsConn, timers⟩ := same
  unfold resetState close readyState setReadyState
  rw [wsConn]
  split
  · exact ⟨sockets, wsConn, timers⟩
  · rw [sockets]
    split
    · exact ⟨rfl, rfl, timers⟩
    · exact ⟨rfl, rfl, timers⟩
    · exact ⟨sockets, wsConn, timers⟩

theorem onServerMessage_net (socket : Nat) (data : Text) :
    SameNet page (page.onServerMessage setup socket data) ∨
      SameNet page.resetState (page.onServerMessage setup socket data) := by
  have inCall : SameNet page (if page.peerConnection = none then page.createCall socket else page) := by
    split <;> exact ⟨rfl, rfl, rfl⟩
  unfold onServerMessage handleIncomingError
  dsimp only
  split
  · exact Or.inl ⟨rfl, rfl, rfl⟩
  · split
    · exact Or.inr ⟨rfl, rfl, rfl⟩
    · split
      · split <;> exact Or.inl ⟨rfl, rfl, rfl⟩
      · split
        · exact Or.inr ⟨rfl, rfl, rfl⟩
        · split
          · exact Or.inl inCall
          · split
            · refine Or.inl ?_
              obtain ⟨sockets, wsConn, timers⟩ := inCall
              unfold onIncomingSDP
              split <;> exact ⟨sockets, wsConn, timers⟩
            · split
              · exact Or.inl inCall
              · exact Or.inr (resetState_of_net inCall)

theorem run_net (ok : Bool) (task : Task) : SameNet page (page.run ok task) := by
  cases task <;> unfold run <;> dsimp only
  case userMedia call => unfold onUserMedia; split <;> exact ⟨rfl, rfl, rfl⟩
  case generateOffer call => unfold generateOffer; split <;> exact ⟨rfl, rfl, rfl⟩
  case remoteSet call offer =>
    unfold onRemoteSet
    split
    · split
      · split <;> exact ⟨rfl, rfl, rfl⟩
      · exact ⟨rfl, rfl, rfl⟩
    · exact ⟨rfl, rfl, rfl⟩
  case answer call stream => unfold onAnswer; split <;> exact ⟨rfl, rfl, rfl⟩
  case created call =>
    unfold onLocalDescription
    split
    · split <;> exact ⟨rfl, rfl, rfl⟩
    · exact ⟨rfl, rfl, rfl⟩
  case localSet call =>
    unfold onLocalSet
    split
    · split
      · split <;> exact ⟨rfl, rfl, rfl⟩
      · exact ⟨rfl, rfl, rfl⟩
    · exact ⟨rfl, rfl, rfl⟩
  case release call => unfold onRelease; split <;> exact ⟨rfl, rfl, rfl⟩

end Page

/-! ## While no WebSocket fails -/

/-- One WebSocket at most is not closed, and then no timer is pending. -/
structure Steady (page : Page) : Prop where
  busy : ∀ (socket : Nat) (ws : WebSocket), page.sockets[socket]? = some ws →
    ws.readyState ≠ .closed → page.wsConn = some socket ∧ page.timers = []
  timers : page.timers.length ≤ 1
  loaded : page.sockets = [] → page.timers = []
  hellos : ∀ (socket : Nat) (ws : WebSocket), page.sockets[socket]? = some ws →
    ws.hellos.length ≤ 1 ∧ (ws.readyState = .connecting → ws.hellos = [])

namespace Steady

open Page

variable {setup : Setup} {page next : Page}

theorem start : Steady Page.start :=
  ⟨by rintro socket ws ⟨⟩, Nat.zero_le _, fun _ => rfl, by rintro socket ws ⟨⟩⟩

theorem of_net (steady : Steady page) (same : SameNet page next) : Steady next := by
  obtain ⟨busy, timers, loaded, hellos⟩ := steady
  refine ⟨?_, ?_, ?_, ?_⟩
  · rw [same.sockets, same.wsConn, same.timers]
    exact busy
  · rw [same.timers]
    exact timers
  · rw [same.sockets, same.timers]
    exact loaded
  · rw [same.sockets]
    exact hellos

/-- A WebSocket that is not closed goes on to another state, and does not connect again. -/
theorem move (steady : Steady page) {socket : Nat} {before after : ReadyState}
    (was : page.readyState socket = some before) (busy : before ≠ .closed)
    (forward : after ≠ .connecting) : Steady (page.setReadyState socket after) := by
  obtain ⟨own, found, state⟩ := readyState_some was
  have here := steady.busy socket own found (state ▸ busy)
  refine ⟨?_, steady.timers, ?_, ?_⟩
  · intro other ws there alive
    rw [sockets_setReadyState] at there
    obtain ⟨old, stood, rfl⟩ := Option.map_eq_some_iff.mp there
    split at alive
    · next same => exact same ▸ here
    · exact steady.busy other old stood alive
  · intro none
    exact here.2
  · intro other ws there
    rw [sockets_setReadyState] at there
    obtain ⟨old, stood, rfl⟩ := Option.map_eq_some_iff.mp there
    obtain ⟨once, fresh⟩ := steady.hellos other old stood
    split
    · exact ⟨once, fun connecting => absurd connecting forward⟩
    · exact ⟨once, fresh⟩

theorem resetState (steady : Steady page) : Steady page.resetState := by
  unfold Page.resetState
  split
  · exact steady
  · unfold Page.close
    split
    · next was => exact steady.move was (by rintro ⟨⟩) (by rintro ⟨⟩)
    · next was => exact steady.move was (by rintro ⟨⟩) (by rintro ⟨⟩)
    · exact steady

/-- A WebSocket is made when nothing else is alive. -/
theorem connect (quiet : ∀ (socket : Nat) (ws : WebSocket), page.sockets[socket]? = some ws →
      ws.readyState = .closed)
    (none : page.timers = [])
    (hellos : ∀ (socket : Nat) (ws : WebSocket), page.sockets[socket]? = some ws →
      ws.hellos.length ≤ 1 ∧ (ws.readyState = .connecting → ws.hellos = []))
    (ourId : Nat) : Steady (page.websocketServerConnect setup ourId) := by
  unfold websocketServerConnect
  split
  · refine ⟨?_, by rw [none]; exact Nat.zero_le _, fun _ => none, hellos⟩
    intro socket ws there alive
    exact absurd (quiet socket ws there) alive
  · have last : ∀ (socket : Nat) (ws : WebSocket),
        (page.sockets ++ [⟨.connecting, []⟩])[socket]? = some ws →
          page.sockets[socket]? = some ws ∨ socket = page.sockets.length ∧ ws = ⟨.connecting, []⟩ := by
      intro socket ws there
      rcases Nat.lt_or_ge socket page.sockets.length with old | new
      · exact Or.inl (by rwa [List.getElem?_append_left old] at there)
      · rw [List.getElem?_append_right new] at there
        have first : socket - page.sockets.length = 0 := by
          have bound := (List.getElem?_eq_some_iff.mp there).1
          simp only [List.length_singleton] at bound
          omega
        rw [first] at there
        cases there
        exact Or.inr ⟨by omega, rfl⟩
    refine ⟨?_, by rw [none]; exact Nat.zero_le _, fun _ => none, ?_⟩
    · intro socket ws there alive
      rcases last socket ws there with old | ⟨rfl, -⟩
      · exact absurd (quiet socket ws old) alive
      · exact ⟨rfl, none⟩
    · intro socket ws there
      rcases last socket ws there with old | ⟨-, rfl⟩
      · exact hellos socket ws old
      · exact ⟨Nat.zero_le _, fun _ => rfl⟩

/-- A pending timer is the only thing alive. -/
theorem quiet (steady : Steady page) (pending : page.timers ≠ []) (socket : Nat) (ws : WebSocket)
    (there : page.sockets[socket]? = some ws) : ws.readyState = .closed :=
  Decidable.not_not.mp fun alive => pending (steady.busy socket ws there alive).2

/-- A WebSocket opens, and the page registers on it. -/
theorem opens (steady : Steady page) {socket : Nat}
    (was : page.readyState socket = some .connecting) :
    Steady (page.setReadyState socket .opened).onOpen := by
  obtain ⟨own, found, state⟩ := readyState_some was
  have alive : own.readyState ≠ .closed := by
    rw [state]
    rintro ⟨⟩
  have here := steady.busy socket own found alive
  have moved := steady.move was (by rintro ⟨⟩) (show ReadyState.opened ≠ .connecting by rintro ⟨⟩)
  have silent : own.hellos = [] := (steady.hellos socket own found).2 state
  have wsConn : (page.setReadyState socket .opened).wsConn = some socket := here.1
  unfold onOpen
  rw [wsConn]
  dsimp only
  split
  · refine ⟨?_, moved.timers, fun _ => here.2, ?_⟩
    · intro other ws there alive'
      rw [List.getElem?_modify] at there
      obtain ⟨old, stood, rfl⟩ := Option.map_eq_some_iff.mp there
      have busy : old.readyState ≠ .closed := by
        split at alive'
        · exact alive'
        · exact alive'
      rw [← wsConn]
      exact moved.busy other old stood busy
    · intro other ws there
      rw [List.getElem?_modify] at there
      obtain ⟨old, stood, rfl⟩ := Option.map_eq_some_iff.mp there
      split
      · next same =>
          subst same
          rw [sockets_setReadyState, found] at stood
          cases stood
          simp only [↓reduceIte]
          rw [silent]
          exact ⟨Nat.le_refl _, by rintro ⟨⟩⟩
      · exact moved.hellos other old stood
  · exact moved

/-- A WebSocket ends, and a reconnection is scheduled. -/
theorem ends (steady : Steady page) {socket : Nat} {before : ReadyState}
    (was : page.readyState socket = some before) (busy : before ≠ .closed) :
    Steady (page.setReadyState socket .closed).onServerClose := by
  obtain ⟨own, found, state⟩ := readyState_some was
  obtain ⟨wsConn, idle⟩ := steady.busy socket own found (state ▸ busy)
  have moved := steady.move was busy (show ReadyState.closed ≠ .connecting by rintro ⟨⟩)
  have net : SameNet (page.setReadyState socket .closed)
      (page.setReadyState socket .closed).resetVideo := by
    unfold resetVideo
    split <;> exact ⟨rfl, rfl, rfl⟩
  have after : (page.setReadyState socket .closed).onServerClose.sockets =
      (page.setReadyState socket .closed).sockets := net.sockets
  have timers : (page.setReadyState socket .closed).onServerClose.timers = [1000] := by
    change (page.setReadyState socket .closed).resetVideo.timers ++ [1000] = [1000]
    rw [net.timers]
    change page.timers ++ [1000] = [1000]
    rw [idle, List.nil_append]
  refine ⟨?_, ?_, ?_, ?_⟩
  · intro other ws there alive
    rw [after, sockets_setReadyState] at there
    obtain ⟨old, stood, rfl⟩ := Option.map_eq_some_iff.mp there
    split at alive
    · exact absurd rfl alive
    · next different =>
        have same := (steady.busy other old stood alive).1
        exact absurd (Option.some.inj (wsConn.symm.trans same)) different
  · rw [timers]
    exact Nat.le_refl _
  · intro none
    rw [after] at none
    have made : (page.setReadyState socket .closed).sockets[socket]? =
        some { own with readyState := .closed } := by
      rw [sockets_setReadyState, found]
      exact congrArg some (if_pos rfl)
    rw [none] at made
    cases made
  · rw [after]
    exact moved.hellos

theorem step {event : Event} (steady : Steady page) (lives : ∀ socket, event ≠ .fails socket)
    (fires : page.step setup event = some next) : Steady next := by
  cases event with
  | load ourId =>
      simp only [Page.step] at fires
      split at fires
      · next none =>
          cases fires
          refine connect ?_ (steady.loaded none) steady.hellos ourId
          intro socket ws there
          rw [none] at there
          cases there
      · cases fires
  | timer index ourId =>
      simp only [Page.step] at fires
      split at fires
      · cases fires
      · next delay found =>
          cases fires
          have some : page.timers ≠ [] := by
            intro none
            rw [none] at found
            cases found
          apply connect
          · intro socket ws there
            exact steady.quiet some socket ws there
          · have bound := (List.getElem?_eq_some_iff.mp found).1
            have length := List.length_eraseIdx_of_lt bound
            have most := steady.timers
            change page.timers.eraseIdx index = []
            exact List.eq_nil_of_length_eq_zero (by omega)
          · exact steady.hellos
  | opens socket =>
      simp only [Page.step] at fires
      split at fires
      · next was =>
          cases fires
          exact steady.opens was
      · cases fires
  | message socket data =>
      simp only [Page.step] at fires
      split at fires
      · cases fires
        have net : SameNet page (page.onServerMessage setup socket data) ∨
            SameNet page.resetState (page.onServerMessage setup socket data) :=
          onServerMessage_net socket data
        rcases net with same | same
        · exact steady.of_net same
        · exact steady.resetState.of_net same
      · cases fires
  | fails socket => exact absurd rfl (lives socket)
  | ends socket =>
      simp only [Page.step] at fires
      split at fires
      · next was =>
          cases fires
          exact steady.ends was (by rintro ⟨⟩)
      · next was =>
          cases fires
          exact steady.ends was (by rintro ⟨⟩)
      · cases fires
  | settles index ok =>
      simp only [Page.step] at fires
      split at fires
      · cases fires
      · split at fires
        · next task _ _ =>
            cases fires
            let left : Page := { page with tasks := page.tasks.eraseIdx index }
            have net : SameNet left (left.run ok task) := run_net ok task
            exact steady.of_net ⟨net.sockets, net.wsConn, net.timers⟩
        · cases fires

/-- A predicate that holds at one index at most. -/
theorem countP_le_one {α : Type} {p : α → Bool} {list : List α}
    (unique : ∀ (i j : Nat) (a b : α), list[i]? = some a → list[j]? = some b → p a = true →
      p b = true → i = j) : list.countP p ≤ 1 := by
  induction list with
  | nil => exact Nat.zero_le _
  | cons a rest ih =>
      rw [List.countP_cons]
      split
      · next holds =>
          have none : rest.countP p = 0 := by
            refine List.countP_eq_zero.mpr fun b inside also => ?_
            obtain ⟨j, found⟩ := List.mem_iff_getElem?.mp inside
            cases unique 0 (j + 1) a b rfl found holds also
          omega
      · exact ih fun i j b c first second holds also =>
          Nat.succ.inj (unique (i + 1) (j + 1) b c first second holds also)

theorem live_alive {ws : WebSocket} (live : ws.live = true) : ws.readyState ≠ .closed := by
  unfold WebSocket.live at live
  intro closed
  rw [closed] at live
  cases live

theorem registered_alive {ws : WebSocket} (registered : ws.registered = true) :
    ws.readyState ≠ .closed ∧ ws.hellos ≠ [] := by
  obtain ⟨opened, said⟩ := Bool.and_eq_true_iff.mp registered
  refine ⟨?_, by simpa using said⟩
  rw [of_decide_eq_true opened]
  rintro ⟨⟩

theorem oneConnection (steady : Steady page) : OneConnection page := by
  have unique : ∀ (i j : Nat) (a b : WebSocket), page.sockets[i]? = some a →
      page.sockets[j]? = some b → a.readyState ≠ .closed → b.readyState ≠ .closed → i = j := by
    intro i j a b first second alive also
    have one := (steady.busy i a first alive).1
    exact Option.some.inj (one.symm.trans (steady.busy j b second also).1)
  refine ⟨?_, ?_, ?_⟩
  · have most : page.sockets.countP WebSocket.live ≤ 1 :=
      countP_le_one fun i j a b first second live also =>
        unique i j a b first second (live_alive live) (live_alive also)
    by_cases idle : page.timers = []
    · rw [idle]
      exact most
    · have none : page.sockets.countP WebSocket.live = 0 := by
        refine List.countP_eq_zero.mpr fun ws inside live => ?_
        obtain ⟨socket, found⟩ := List.mem_iff_getElem?.mp inside
        exact live_alive live (steady.quiet idle socket ws found)
      rw [none, Nat.zero_add]
      exact steady.timers
  · intro socket ws there live
    exact (steady.busy socket ws there (live_alive live)).1
  · intro first second ws other found found' registered registered'
    obtain ⟨alive, said⟩ := registered_alive registered
    refine ⟨unique first second ws other found found' alive (registered_alive registered').1, ?_⟩
    have once := (steady.hellos first ws found).1
    have some := List.length_pos_iff.mpr said
    omega

end Steady

/-- A WebSocket that fails leaves two timers. -/
theorem two_timers {setup : Setup} {page next : Page} {socket : Nat}
    (fires : page.step setup (.fails socket) = some next) : ¬ OneConnection next := by
  have timers : ∃ before, next.timers = before ++ [3000] ++ [1000] := by
    simp only [Page.step] at fires
    split at fires
    · cases fires
    · cases fires
    · cases fires
      refine ⟨(page.setReadyState socket .closed).timers, ?_⟩
      unfold Page.onServerClose Page.resetVideo
      dsimp only
      split <;> rfl
  obtain ⟨before, two⟩ := timers
  intro one
  have alive := one.alive
  rw [two, List.length_append, List.length_append] at alive
  simp only [List.length_singleton] at alive
  omega

/--
In every run the page has one connection or one pending reconnection at every
moment exactly when no WebSocket fails.
-/
theorem one_connection_iff {setup : Setup} {events : List Page.Event} {last : Page}
    (done : (browser setup).exec Page.start events = some last) :
    (∀ before page, before <+: events → (browser setup).exec Page.start before = some page →
      OneConnection page) ↔ ∀ socket, .fails socket ∉ events := by
  constructor
  · intro always socket inside
    obtain ⟨before, after, rfl⟩ := List.append_of_mem inside
    rw [Machine.exec_append] at done
    obtain ⟨page, earlier, later⟩ := Option.bind_eq_some_iff.mp done
    obtain ⟨next, fires, -⟩ := Option.bind_eq_some_iff.mp later
    have failed : page.step setup (.fails socket) = some next := fires
    refine two_timers failed (always (before ++ [.fails socket]) next ?_ ?_)
    · exact ⟨after, by rw [List.append_assoc, List.singleton_append]⟩
    · rw [Machine.exec_append, earlier, Option.bind_some, Machine.exec, fires]
      rfl
  · intro lives before page within reached
    have run : (browser setup).Run (fun _ event => ∀ socket, event ≠ .fails socket) Page.start page :=
      Machine.run_of_exec before
        (fun event inside _ socket same => lives socket (same ▸ within.subset inside)) reached
    have steady : Steady page := run.invariant Steady.start
      fun _ _ _ steady lives fires => steady.step lives fires
    exact steady.oneConnection

/-- A page with a random id, and messages that are no JSON. -/
def plain : Setup := ⟨none, fun _ => none⟩

/-- The server goes away, and the page connects again. -/
def reconnects : List Page.Event :=
  [.load 11, .opens 0, .message 0 "HELLO".toList, .ends 0, .timer 0 12, .opens 1]

theorem one_connection_reconnects : ∃ last,
    (browser plain).exec Page.start reconnects = some last ∧
      ∀ before page, before <+: reconnects →
        (browser plain).exec Page.start before = some page → OneConnection page := by
  obtain ⟨last, done⟩ : ∃ last, (browser plain).exec Page.start reconnects = some last := ⟨_, rfl⟩
  have lives : ∀ socket, .fails socket ∉ reconnects := by
    intro socket inside
    simp [reconnects] at inside
  exact ⟨last, done, (one_connection_iff done).mpr lives⟩

/-- The first connection fails, and both reconnections succeed. -/
def failsOnce : List Page.Event :=
  [.load 11, .fails 0, .timer 1 12, .opens 1, .timer 0 13, .opens 2]

/-- Then the page is registered with the server under two ids. -/
theorem registered_twice :
    ¬ ∀ (setup : Setup) (events : List Page.Event) (page : Page),
      (browser setup).exec Page.start events = some page → OneConnection page := by
  intro one
  obtain ⟨page, done⟩ : ∃ page, (browser plain).exec Page.start failsOnce = some page := ⟨_, rfl⟩
  have same := one plain failsOnce page done
  cases done
  cases (same.registered 1 2 _ _ rfl rfl rfl rfl).1

end GstWebrtc.Browser
