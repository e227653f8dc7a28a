import GstWebrtc.Browser.OneConnection

/-!
# Calls of the page

Which connection a callback acts on is decided when it runs.  A call is kept
apart from the others exactly when none of its callbacks runs during a later
call, and its description is sent while its WebSocket is `ws_conn`.
-/

namespace GstWebrtc.Browser

open GstWebrtc.Base

namespace Effect

/-- The call for which something is done. -/
def call : Effect → Nat
  | addStream call _ | createOffer call _ | createAnswer call _ | setLocalDescription call _
  | sendSdp call _ _ | stopTracks call => call

/-- It is done to the call's own connection, and on the WebSocket that carried the call. -/
def Own (calls : List Nat) : Effect → Prop
  | addStream call pc | createOffer call pc | createAnswer call pc
  | setLocalDescription call pc => pc = call
  | sendSdp call pc socket => pc = call ∧ calls[call]? = some socket
  | stopTracks _ => True

/-- Later calls do not matter. -/
theorem own_append {calls more : List Nat} {e : Effect} (made : e.call < calls.length) :
    e.Own (calls ++ more) ↔ e.Own calls := by
  cases e with
  | sendSdp call pc socket =>
      have same : (calls ++ more)[call]? = calls[call]? := List.getElem?_append_left made
      exact and_congr_right fun _ => by rw [same]
  | _ => exact Iff.rfl

end Effect

/-- Nothing that was done for a call has reached another one. -/
def Page.Apart (page : Page) : Prop := ∀ e ∈ page.log, e.Own page.calls

namespace Page

/-- The callback does something for its call, when there is a call. -/
def acts (page : Page) (ok : Bool) : Task → Bool
  | .userMedia _ => ok
  | .created _ => ok
  | .localSet _ => ok && page.wsConn.any fun socket => page.readyState socket = some .opened
  | .generateOffer _ => true
  | .answer _ _ => true
  | .remoteSet _ _ => false
  | .release _ => false

/-- The callback acts on its own call. -/
def Keeps (page : Page) (task : Task) : Prop :=
  (∀ current, page.peerConnection = some current → ¬ task.call < current) ∧
    ∀ call socket, task = .localSet call → page.peerConnection = some call →
      page.wsConn = some socket → page.calls[call]? = some socket

end Page

/-- A callback that acts does not run during a later call, and a description is sent while the
WebSocket that carried the call is `ws_conn`. -/
def KeepsApart (page : Page) : Page.Event → Prop
  | .settles index ok =>
      ∀ task, page.tasks[index]? = some task → page.acts ok task = true → page.Keeps task
  | _ => True

namespace Page

variable {setup : Setup} {page next : Page} {ok : Bool} {task : Task}

/-- What a callback that acts does to the current connection. -/
def effectOn (page : Page) (pc : Nat) : Task → Option Effect
  | .userMedia call => some (.addStream call pc)
  | .generateOffer call => some (.createOffer call pc)
  | .answer call _ => some (.createAnswer call pc)
  | .created call => some (.setLocalDescription call pc)
  | .localSet call => page.wsConn.map fun socket => .sendSdp call pc socket
  | _ => none

/-- What a callback does for its call. -/
def effectOf (page : Page) (ok : Bool) (task : Task) : Option Effect :=
  if page.acts ok task then
    match page.peerConnection with
    | none => none
    | some pc => page.effectOn pc task
  else
    match task with
    | .release call =>
        if page.streams.any fun stream => stream = (call, true) then some (.stopTracks call)
        else none
    | _ => none

theorem effectOf_of_none (acts : page.acts ok task = true) (idle : page.peerConnection = none) :
    page.effectOf ok task = none := by
  unfold effectOf
  rw [if_pos acts, idle]

theorem effectOf_of_some {pc : Nat} (acts : page.acts ok task = true)
    (current : page.peerConnection = some pc) :
    page.effectOf ok task = page.effectOn pc task := by
  unfold effectOf
  rw [if_pos acts, current]

/-- What a callback leaves behind. -/
structure Ran (page : Page) (ok : Bool) (task : Task) (next : Page) : Prop where
  calls : next.calls = page.calls
  peerConnection : next.peerConnection = page.peerConnection
  wsConn : next.wsConn = page.wsConn
  stream : next.localStreamPromise = page.localStreamPromise
  log : next.log = page.log ++ (page.effectOf ok task).toList
  tasks : ∀ other ∈ next.tasks, other ∈ page.tasks ∨ other.call = task.call

theorem Ran.unchanged (none : page.effectOf ok task = none) : Ran page ok task page := by
  refine ⟨rfl, rfl, rfl, rfl, ?_, fun _ inside => Or.inl inside⟩
  rw [none]
  exact (List.append_nil _).symm

/-- A callback that asks the browser for something goes on in another one of its call. -/
theorem Ran.asked {other : Task} {e : Effect} (own : other.call = task.call)
    (does : page.effectOf ok task = some e) :
    Ran page ok task { page with tasks := page.tasks ++ [other], log := page.log ++ [e] } := by
  refine ⟨rfl, rfl, rfl, rfl, by rw [does]; rfl, fun t inside => ?_⟩
  rcases List.mem_append.mp inside with old | new
  · exact Or.inl old
  · exact Or.inr (List.mem_singleton.mp new ▸ own)

theorem run_userMedia (page : Page) (ok : Bool) (call : Nat) :
    Ran page ok (.userMedia call) (page.run ok (.userMedia call)) := by
  unfold run onUserMedia
  dsimp only
  cases ok with
  | false => exact ⟨rfl, rfl, rfl, rfl, (List.append_nil _).symm, fun _ inside => Or.inl inside⟩
  | true =>
      cases current : page.peerConnection with
      | none =>
          have none : page.effectOf true (.userMedia call) = none := effectOf_of_none rfl current
          refine ⟨rfl, current.symm, rfl, rfl, ?_, fun _ inside => Or.inl inside⟩
          rw [none]
          exact (List.append_nil _).symm
      | some pc =>
          have does : page.effectOf true (.userMedia call) = some (.addStream call pc) :=
            effectOf_of_some rfl current
          refine ⟨rfl, current.symm, rfl, rfl, ?_, fun _ inside => Or.inl inside⟩
          rw [does]
          rfl

theorem run_remoteSet (page : Page) (ok : Bool) (call : Nat) (offer : Bool) :
    Ran page ok (.remoteSet call offer) (page.run ok (.remoteSet call offer)) := by
  unfold run onRemoteSet
  dsimp only
  have none : page.effectOf ok (.remoteSet call offer) = none := rfl
  split
  · split
    · split
      · exact .unchanged none
      · refine ⟨rfl, rfl, rfl, rfl, by rw [none]; exact (List.append_nil _).symm, ?_⟩
        intro t inside
        rcases List.mem_append.mp inside with old | new
        · exact Or.inl old
        · exact Or.inr (List.mem_singleton.mp new ▸ rfl)
    · exact .unchanged none
  · exact .unchanged none

theorem run_localSet (page : Page) (ok : Bool) (call : Nat) :
    Ran page ok (.localSet call) (page.run ok (.localSet call)) := by
  unfold run onLocalSet
  dsimp only
  split
  · next fulfilled =>
      subst fulfilled
      split
      · next pc socket current wsConn =>
          have acts : page.acts true (.localSet call) =
              decide (page.readyState socket = some .opened) := by
            unfold acts
            rw [wsConn]
            rfl
          split
          · next opened =>
              refine ⟨rfl, rfl, rfl, rfl, ?_, fun _ inside => Or.inl inside⟩
              rw [effectOf_of_some (acts.trans (decide_eq_true opened)) current, effectOn, wsConn]
              rfl
          · next unopened =>
              refine .unchanged ?_
              unfold effectOf
              rw [acts, if_neg (by simpa using unopened)]
      · next missing =>
          refine .unchanged ?_
          unfold effectOf
          split
          · split
            · rfl
            · next pc current =>
                cases wsConn : page.wsConn with
                | none =>
                    unfold effectOn
                    rw [wsConn]
                    rfl
                | some socket => exact absurd wsConn (missing pc socket current)
          · rfl
  · next rejected =>
      cases Bool.eq_false_iff.mpr rejected
      exact .unchanged rfl

theorem run_ran (page : Page) (ok : Bool) (task : Task) : Ran page ok task (page.run ok task) := by
  cases task with
  | userMedia call => exact run_userMedia page ok call
  | generateOffer call =>
      unfold run generateOffer
      dsimp only
      split
      · next current => exact .unchanged (effectOf_of_none rfl current)
      · next pc current => exact .asked rfl (effectOf_of_some rfl current)
  | remoteSet call offer => exact run_remoteSet page ok call offer
  | answer call stream =>
      unfold run onAnswer
      dsimp only
      split
      · next current => exact .unchanged (effectOf_of_none rfl current)
      · next pc current => exact .asked rfl (effectOf_of_some rfl current)
  | created call =>
      unfold run onLocalDescription
      dsimp only
      split
      · next fulfilled =>
          subst fulfilled
          split
          · next current => exact .unchanged (effectOf_of_none rfl current)
          · next pc current => exact .asked rfl (effectOf_of_some rfl current)
      · next rejected =>
          cases Bool.eq_false_iff.mpr rejected
          exact .unchanged rfl
  | localSet call => exact run_localSet page ok call
  | release call =>
      unfold run onRelease
      dsimp only
      split
      · next there =>
          refine ⟨rfl, rfl, rfl, rfl, ?_, fun _ inside => Or.inl inside⟩
          have does : page.effectOf ok (.release call) = some (.stopTracks call) := if_pos there
          rw [does]
          rfl
      · next missing => exact .unchanged (if_neg missing)

theorem effectOf_call {e : Effect} (does : page.effectOf ok task = some e) : e.call = task.call := by
  unfold effectOf at does
  split at does
  · split at does
    · cases does
    · cases task with
      | localSet call =>
          obtain ⟨socket, -, rfl⟩ := Option.map_eq_some_iff.mp does
          rfl
      | remoteSet call offer => cases does
      | release call => cases does
      | _ =>
          cases does
          rfl
  · cases task with
    | release call =>
        dsimp only at does
        split at does
        · cases does
          rfl
        · cases does
    | _ => cases does

end Page

/-! ## Calls are numbered -/

/-- The current call is the last one, and what is pending or done belongs to one of the calls. -/
structure Numbered (page : Page) : Prop where
  current : ∀ call, page.peerConnection = some call → call + 1 = page.calls.length
  stream : ∀ call, page.localStreamPromise = some call → call < page.calls.length
  tasks : ∀ task ∈ page.tasks, task.call < page.calls.length
  log : ∀ e ∈ page.log, e.call < page.calls.length

/-- Calls may have been created, and nothing has been done for any. -/
structure Grows (page next : Page) : Prop where
  numbered : Numbered next
  log : next.log = page.log
  calls : ∃ more, next.calls = page.calls ++ more

namespace Numbered

open Page

variable {setup : Setup} {page next : Page} {ok : Bool} {task : Task}

theorem start : Numbered Page.start :=
  ⟨by rintro call ⟨⟩, by rintro call ⟨⟩, by rintro task ⟨⟩, by rintro e ⟨⟩⟩

theorem refl (numbered : Numbered page) : Grows page page :=
  ⟨numbered, rfl, [], (List.append_nil _).symm⟩

theorem resetState (numbered : Numbered page) : Grows page page.resetState := by
  obtain ⟨current, stream, tasks, log⟩ := numbered
  unfold Page.resetState close setReadyState
  split
  · exact ⟨⟨current, stream, tasks, log⟩, rfl, [], (List.append_nil _).symm⟩
  · split <;> exact ⟨⟨current, stream, tasks, log⟩, rfl, [], (List.append_nil _).symm⟩

/-- A callback is added for one of the calls. -/
theorem pend (numbered : Numbered page) (made : task.call < page.calls.length) :
    Grows page { page with tasks := page.tasks ++ [task] } := by
  refine ⟨⟨numbered.current, numbered.stream, fun other inside => ?_, numbered.log⟩, rfl, [],
    (List.append_nil _).symm⟩
  rcases List.mem_append.mp inside with old | new
  · exact numbered.tasks other old
  · exact List.mem_singleton.mp new ▸ made

theorem createCall (numbered : Numbered page) (socket : Nat) :
    Grows page (page.createCall socket) := by
  have more : page.calls.length < (page.calls ++ [socket]).length := by simp
  refine ⟨⟨?_, ?_, ?_, ?_⟩, rfl, [socket], rfl⟩
  · rintro call ⟨⟩
    change page.calls.length + 1 = (page.calls ++ [socket]).length
    rw [List.length_append]
    rfl
  · rintro call ⟨⟩
    exact more
  · intro task inside
    rcases List.mem_append.mp inside with old | new
    · exact (numbered.tasks task old).trans more
    · cases List.mem_singleton.mp new
      exact more
  · intro e inside
    exact (numbered.log e inside).trans more

end Numbered

theorem Grows.trans {page middle next : Page} (first : Grows page middle)
    (second : Grows middle next) : Grows page next := by
  obtain ⟨more, calls⟩ := first.calls
  obtain ⟨later, calls'⟩ := second.calls
  exact ⟨second.numbered, second.log.trans first.log, more ++ later,
    by rw [calls', calls, List.append_assoc]⟩

namespace Numbered

open Page

variable {setup : Setup} {page next : Page} {ok : Bool} {task : Task}

theorem onIncomingSDP (numbered : Numbered page) (sdp : Json) :
    Grows page (page.onIncomingSDP sdp) := by
  unfold Page.onIncomingSDP
  split
  · exact numbered.refl
  · next call current =>
      exact numbered.pend (Nat.lt_of_succ_le (Nat.le_of_eq (numbered.current call current)))

theorem onServerMessage (numbered : Numbered page) (socket : Nat) (data : Text) :
    Grows page (page.onServerMessage setup socket data) := by
  have inCall :
      Grows page (if page.peerConnection = none then page.createCall socket else page) := by
    split
    · exact numbered.createCall socket
    · exact numbered.refl
  unfold Page.onServerMessage handleIncomingError
  dsimp only
  split
  · exact numbered.refl
  · split
    · exact numbered.resetState
    · split
      · split
        · exact numbered.refl
        · have created := numbered.createCall socket
          have more : page.calls.length < (page.createCall socket).calls.length := by
            change _ < (page.calls ++ [socket]).length
            simp
          exact created.trans (created.numbered.pend more)
      · split
        · exact numbered.resetState
        · split
          · exact inCall
          · split
            · exact inCall.trans (inCall.numbered.onIncomingSDP _)
            · split
              · exact inCall
              · exact inCall.trans inCall.numbered.resetState

/-- The current call is over. -/
theorem onServerClose (numbered : Numbered page) : Grows page page.onServerClose := by
  have reset : Grows page page.resetVideo := by
    unfold resetVideo
    split
    · exact numbered.refl
    · next call stream => exact numbered.pend (numbered.stream call stream)
  obtain ⟨⟨-, stream, tasks, log⟩, same, more⟩ := reset
  refine ⟨⟨?_, stream, tasks, log⟩, same, more⟩
  rintro call ⟨⟩

/-- What happens other than a callback of a promise. -/
theorem grows {event : Event} (numbered : Numbered page)
    (other : ∀ index ok, event ≠ .settles index ok)
    (fires : page.step setup event = some next) : Grows page next := by
  obtain ⟨current, stream, tasks, log⟩ := numbered
  have connected : ∀ timers ourId,
      Grows page ({ page with timers := timers }.websocketServerConnect setup ourId) := by
    intro timers ourId
    unfold websocketServerConnect
    split <;> exact ⟨⟨current, stream, tasks, log⟩, rfl, [], (List.append_nil _).symm⟩
  have closed : ∀ sockets timers,
      Grows page { page with sockets := sockets, timers := timers }.onServerClose := by
    intro sockets timers
    have same : Numbered { page with sockets := sockets, timers := timers } :=
      ⟨current, stream, tasks, log⟩
    obtain ⟨numbered', log', calls'⟩ := same.onServerClose
    exact ⟨numbered', log', calls'⟩
  cases event with
  | load ourId =>
      simp only [Page.step] at fires
      split at fires
      · cases fires
        exact connected page.timers ourId
      · cases fires
  | timer index ourId =>
      simp only [Page.step] at fires
      split at fires
      · cases fires
      · cases fires
        exact connected _ ourId
  | opens socket =>
      simp only [Page.step] at fires
      split at fires
      · cases fires
        unfold onOpen setReadyState
        dsimp only
        split
        · exact ⟨⟨current, stream, tasks, log⟩, rfl, [], (List.append_nil _).symm⟩
        · split <;> exact ⟨⟨current, stream, tasks, log⟩, rfl, [], (List.append_nil _).symm⟩
      · cases fires
  | message socket data =>
      simp only [Page.step] at fires
      split at fires
      · cases fires
        exact onServerMessage ⟨current, stream, tasks, log⟩ socket data
      · cases fires
  | fails socket =>
      simp only [Page.step] at fires
      split at fires
      · cases fires
      · cases fires
      · cases fires
        exact closed _ _
  | ends socket =>
      simp only [Page.step] at fires
      split at fires
      · cases fires
        exact closed _ _
      · cases fires
        exact closed _ _
      · cases fires
  | settles index ok => exact absurd rfl (other index ok)

/-- A callback has run for one of the calls. -/
theorem ran (numbered : Numbered page) (made : task.call < page.calls.length)
    (did : Ran page ok task next) : Numbered next := by
  refine ⟨?_, ?_, ?_, ?_⟩
  · rw [did.peerConnection, did.calls]
    exact numbered.current
  · rw [did.stream, did.calls]
    exact numbered.stream
  · rw [did.calls]
    intro other inside
    rcases did.tasks other inside with old | own
    · exact numbered.tasks other old
    · exact own ▸ made
  · rw [did.calls, did.log]
    intro e inside
    rcases List.mem_append.mp inside with old | new
    · exact numbered.log e old
    · exact effectOf_call (Option.mem_toList.mp new) ▸ made

/-- A callback does what it does to its own call exactly when the call is still the current one. -/
theorem own_iff (numbered : Numbered page) (made : task.call < page.calls.length) :
    (∀ e, page.effectOf ok task = some e → e.Own page.calls) ↔
      (page.acts ok task = true → page.Keeps task) := by
  by_cases acts : page.acts ok task = true
  · cases idle : page.peerConnection with
    | none =>
        refine iff_of_true (fun e does => ?_) fun _ => ⟨?_, ?_⟩
        · unfold effectOf at does
          rw [if_pos acts, idle] at does
          cases does
        · rw [idle]
          rintro current ⟨⟩
        · rw [idle]
          rintro call socket - ⟨⟩
    | some pc =>
        have last : task.call ≤ pc := by
          have bound := numbered.current pc idle
          omega
        have current : (∀ current, page.peerConnection = some current → ¬ task.call < current) ↔
            pc = task.call := by
          rw [idle]
          refine ⟨fun h => Nat.le_antisymm (Nat.le_of_not_lt (h pc rfl)) last, ?_⟩
          rintro rfl current ⟨⟩
          exact Nat.lt_irrefl _
        -- all but the sending of a description
        have plain : (∀ call, task ≠ .localSet call) → ∀ e, page.effectOf ok task = some e →
            (e.Own page.calls ↔ pc = task.call) →
              ((∀ e, page.effectOf ok task = some e → e.Own page.calls) ↔
                (page.acts ok task = true → page.Keeps task)) := by
          intro other e does own
          rw [does]
          refine ⟨fun h _ => ⟨current.mpr (own.mp (h e rfl)), ?_⟩, ?_⟩
          · rintro call socket same
            exact absurd same (other call)
          · rintro h _ ⟨⟩
            exact own.mpr (current.mp (h acts).1)
        have does := effectOf_of_some acts idle
        cases task with
        | userMedia call => exact plain (by rintro call ⟨⟩) _ does Iff.rfl
        | generateOffer call => exact plain (by rintro call ⟨⟩) _ does Iff.rfl
        | answer call stream => exact plain (by rintro call ⟨⟩) _ does Iff.rfl
        | created call => exact plain (by rintro call ⟨⟩) _ does Iff.rfl
        | remoteSet call offer => cases acts
        | release call => cases acts
        | localSet call =>
            obtain ⟨socket, wsConn, -⟩ :=
              (Option.any_eq_true ..).mp (Bool.and_eq_true_iff.mp acts).2
            rw [does, effectOn, wsConn]
            constructor
            · intro h _
              obtain ⟨same, carried⟩ := h _ rfl
              refine ⟨current.mpr same, ?_⟩
              rintro call' socket' ⟨⟩ - ws
              cases wsConn.symm.trans ws
              exact carried
            · rintro h e ⟨⟩
              obtain ⟨latest, carried⟩ := h acts
              have same : pc = call := current.mp latest
              subst same
              exact ⟨rfl, carried pc socket rfl idle wsConn⟩
  · refine iff_of_true (fun e does => ?_) fun h => absurd h acts
    unfold effectOf at does
    rw [if_neg acts] at does
    cases task with
    | release call =>
        dsimp only at does
        split at does
        · cases does
          exact True.intro
        · cases does
    | _ => cases does

/-- A callback that runs, on the page without it. -/
theorem of_settles {index : Nat} (fires : page.step setup (.settles index ok) = some next) :
    ∃ task, page.tasks[index]? = some task ∧
      Ran { page with tasks := page.tasks.eraseIdx index } ok task next := by
  simp only [Page.step] at fires
  split at fires
  · cases fires
  · next task found =>
      split at fires
      · cases fires
        exact ⟨task, found, run_ran _ ok task⟩
      · cases fires

theorem erase (numbered : Numbered page) (index : Nat) :
    Numbered { page with tasks := page.tasks.eraseIdx index } :=
  ⟨numbered.current, numbered.stream,
    fun task inside => numbered.tasks task (List.mem_of_mem_eraseIdx inside), numbered.log⟩

theorem step {event : Event} (numbered : Numbered page)
    (fires : page.step setup event = some next) : Numbered next := by
  by_cases settles : ∃ index ok, event = .settles index ok
  · obtain ⟨index, ok, rfl⟩ := settles
    obtain ⟨task, found, did⟩ := of_settles fires
    have made := numbered.tasks task (List.mem_of_getElem? found)
    exact (numbered.erase index).ran made did
  · exact (numbered.grows (fun index ok same => settles ⟨index, ok, same⟩) fires).numbered

/-- A step keeps the calls apart exactly when it meets the condition. -/
theorem apart_iff {event : Event} (numbered : Numbered page)
    (fires : page.step setup event = some next) :
    next.Apart ↔ page.Apart ∧ KeepsApart page event := by
  by_cases settles : ∃ index ok, event = .settles index ok
  · obtain ⟨index, ok, rfl⟩ := settles
    obtain ⟨task, found, did⟩ := of_settles fires
    have made := numbered.tasks task (List.mem_of_getElem? found)
    have own : (∀ e, page.effectOf ok task = some e → e.Own page.calls) ↔
        KeepsApart page (.settles index ok) := by
      refine (numbered.own_iff made).trans ⟨fun h other there => ?_, fun h => h task found⟩
      cases found.symm.trans there
      exact h
    rw [← own]
    unfold Apart
    rw [did.log, did.calls]
    refine ⟨fun h => ⟨fun e inside => ?_, fun e does => ?_⟩, ?_⟩
    · exact h e (List.mem_append_left _ inside)
    · exact h e (List.mem_append_right _ (Option.mem_toList.mpr does))
    · rintro ⟨before, now⟩ e inside
      rcases List.mem_append.mp inside with old | new
      · exact before e old
      · exact now e (Option.mem_toList.mp new)
  · have other : ∀ index ok, event ≠ .settles index ok :=
      fun index ok same => settles ⟨index, ok, same⟩
    obtain ⟨-, log, more, calls⟩ := numbered.grows other fires
    have free : KeepsApart page event := by
      cases event with
      | settles index ok => exact absurd rfl (other index ok)
      | _ => exact True.intro
    refine Iff.trans ?_ (and_iff_left free).symm
    unfold Apart
    rw [log, calls]
    exact forall₂_congr fun e inside => Effect.own_append (numbered.log e inside)

end Numbered

/--
What is done for a call reaches only its own connection and its own WebSocket,
in a run, exactly when no callback that acts runs during a later call and every
description is sent while the WebSocket that carried the call is `ws_conn`.
-/
theorem calls_apart_iff {setup : Setup} {events : List Page.Event} {last : Page}
    (done : (browser setup).exec Page.start events = some last) :
    last.Apart ↔ (browser setup).Along KeepsApart Page.start events := by
  refine (Machine.iff_along Numbered (fun _ _ _ numbered fires => numbered.step fires)
    (fun _ _ _ numbered fires => numbered.apart_iff fires) events Numbered.start done).trans ?_
  refine and_iff_right ?_
  rintro e ⟨⟩

/-- The offer of a peer, as it is relayed. -/
def offerText : Text :=
  "\x7b\"sdp\":\x7b\"type\":\"offer\",\"sdp\":\"v=0\"\x7d\x7d".toList

/-- No text of the run other than the offer is read as JSON. -/
def offered : Setup where
  defaultPeerId := none
  parse data :=
    if data = offerText then
      some (.object [("sdp".toList, .object [("type".toList, .string "offer".toList),
        ("sdp".toList, .string "v=0".toList)])])
    else none

/-- A call is offered on the WebSocket, and is answered in time. -/
def answersOn (socket : Nat) : List Page.Event :=
  [.opens socket, .message socket "HELLO".toList, .message socket offerText, .settles 0 true,
    .settles 0 true, .settles 0 true, .settles 0 true, .settles 0 true]

/-- The first call ends and its camera is released before the second one is offered. -/
def answersTwice : List Page.Event :=
  .load 11 :: answersOn 0 ++ [.ends 0, .timer 0 12, .settles 0 true] ++ answersOn 1

/-- What is done for a call that is answered on its own WebSocket. -/
def answered (call : Nat) : List Effect :=
  [.addStream call call, .createAnswer call call, .setLocalDescription call call,
    .sendSdp call call call]

theorem answered_own {calls : List Nat} {call : Nat} (carried : calls[call]? = some call) :
    ∀ e ∈ answered call, e.Own calls := by
  intro e inside
  simp only [answered, List.mem_cons, List.not_mem_nil, or_false] at inside
  rcases inside with rfl | rfl | rfl | rfl
  · rfl
  · rfl
  · rfl
  · exact ⟨rfl, carried⟩

theorem calls_apart_answered : ∃ last,
    (browser offered).exec Page.start answersTwice = some last ∧
      last.calls = [0, 1] ∧ last.log = answered 0 ++ [.stopTracks 0] ++ answered 1 ∧
      (browser offered).Along KeepsApart Page.start answersTwice := by
  obtain ⟨last, done⟩ : ∃ last, (browser offered).exec Page.start answersTwice = some last :=
    ⟨_, rfl⟩
  have log : last.log = answered 0 ++ [.stopTracks 0] ++ answered 1 := by
    cases done
    rfl
  have calls : last.calls = [0, 1] := by
    cases done
    rfl
  have apart : last.Apart := by
    unfold Page.Apart
    rw [log, calls]
    intro e inside
    rcases List.mem_append.mp inside with first | second
    · rcases List.mem_append.mp first with one | released
      · exact answered_own rfl e one
      · cases List.mem_singleton.mp released
        exact True.intro
    · exact answered_own rfl e second
  exact ⟨last, done, calls, log, (calls_apart_iff done).mp apart⟩

/-- The user allows the camera of a call when it is over and another one has begun. -/
def allowsLate : List Page.Event :=
  [.load 11, .opens 0, .message 0 offerText, .ends 0, .timer 0 12, .opens 1,
    .message 1 offerText, .settles 0 true]

theorem stream_of_ended_call :
    ¬ ∀ (setup : Setup) (events : List Page.Event) (last : Page),
      (browser setup).exec Page.start events = some last → last.Apart := by
  intro apart
  obtain ⟨last, done⟩ : ∃ last, (browser offered).exec Page.start allowsLate = some last :=
    ⟨_, rfl⟩
  have reached : Effect.addStream 0 1 ∈ last.log := by
    cases done
    decide
  cases apart offered allowsLate last done _ reached

end GstWebrtc.Browser
