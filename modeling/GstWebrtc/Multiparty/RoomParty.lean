import GstWebrtc.Multiparty.RoomClient
import GstWebrtc.Signalling.Handshake

/-!
# The server and its Python room clients

At every connection a process of `room-client.py` talks to the server.  What it
sends waits in its outbox until the server takes it; what the server sends waits
on the connection until the process does.  Several connections may use one uid,
one after the other.
-/

namespace GstWebrtc.Multiparty.RoomClient

open GstWebrtc.Base GstWebrtc.Base.PyText GstWebrtc.Signalling

/-- `PEER_ID` of the process at each connection, and the `ROOM_ID` that all are given. -/
structure Setup where
  repr : Text → Text
  peerId : ConnId → Uid
  clean : ∀ k, Clean (peerId k)
  roomId : RoomId
  word : Word roomId

/-- How far `hello` has come. -/
inductive Stage where
  /-- At `assert(await ws.recv() == 'HELLO')`. -/
  | greeting
  | loop (sentOffers : Finset Text)
  | ended

/-- What the process makes of the text that `ws.recv()` returns, and what it sends for it. -/
def receive (setup : Setup) : Stage → Text → Stage × List Text
  | .greeting, msg =>
      if msg = "HELLO".toList then (.loop ∅, ["ROOM ".toList ++ setup.roomId]) else (.ended, [])
  | .loop sentOffers, msg =>
      match round sentOffers msg with
      | .continue sentOffers sent => (.loop sentOffers, sent)
      | .return | .raise => (.ended, [])
  | .ended, _ => (.ended, [])

structure Party where
  world : World
  stage : ConnId → Stage
  outbox : ConnId → List Text
  /-- Each reply that the process has taken, with the texts that it sent for it. -/
  history : ConnId → List (Reply × List Text)

inductive Move where
  | server (act : Act)
  | take (conn : ConnId)

namespace Party

variable (setup : Setup)

def empty : Party := ⟨World.empty, fun _ => .greeting, fun _ => [], fun _ => []⟩

/-- Process `k` takes a reply. -/
def taken (s : Party) (k : ConnId) (reply : Reply) : Party :=
  let result := receive setup (s.stage k) (reply.text setup.repr)
  { s with
    stage := Function.update s.stage k result.1
    outbox := Function.update s.outbox k (s.outbox k ++ result.2)
    history := Function.update s.history k (s.history k ++ [(reply, result.2)]) }

/-- What a step of the server means for the process at the connection. -/
def serve (s : Party) : Act → Option Party
  | .connect k =>
      some { s with
        outbox := Function.update s.outbox k (s.outbox k ++ ["HELLO ".toList ++ setup.peerId k]) }
  | .lose k => some { s with stage := Function.update s.stage k .ended }
  | .recv k msg _ _ =>
      match s.outbox k with
      | [] => none
      | text :: rest =>
          if text = msg then some { s with outbox := Function.update s.outbox k rest } else none
  | _ => some s

def step (s : Party) : Move → Option Party
  | .server act =>
      (s.world.step act).bind fun world =>
        (s.serve setup act).map fun next => { next with world := world }
  | .take k =>
      match s.stage k, (s.world.mailTo k)[(s.history k).length]? with
      | .ended, _ | _, none => none
      | _, some reply => some (s.taken setup k reply)

end Party

/-- The server and the processes, started before any of them is connected. -/
def party (setup : Setup) : Machine Party Move := ⟨Party.empty, Party.step setup⟩

/-! ## What a process makes of a reply -/

/-- The outcomes of a reply for a process in its loop. -/
inductive Received (sentOffers : Finset Text) : Reply → Stage × List Text → Prop where
  | listed {room peers} : Received sentOffers (.roomOk room peers)
      (.loop (peers.toFinset ∪ sentOffers), peers.map getOfferSdp)
  | joined {uid} : Received sentOffers (.peerJoined uid) (.loop sentOffers, [])
  | left {uid} : Received sentOffers (.peerLeft uid) (.loop sentOffers, [])
  | message {uid payload} : Received sentOffers (.peerMsg uid payload)
      (.loop sentOffers, if uid ∈ sentOffers then [] else [getAnswerSdp payload uid])
  | stopped {reply} (other : reply.ofRoom = false) : Received sentOffers reply (.ended, [])

/-- What a process in its loop makes of a text that keeps it there. -/
theorem receive_continue {setup : Setup} {sentOffers sentOffers' : Finset Text} {msg : Text}
    {sent : List Text} (goesOn : round sentOffers msg = .continue sentOffers' sent) :
    receive setup (.loop sentOffers) msg = (.loop sentOffers', sent) := by
  rw [receive, goesOn]

theorem receive_received {setup : Setup} {sentOffers : Finset Text} {reply : Reply}
    (clean : ∀ p ∈ reply.names, Clean p) (notRelay : ∀ msg, reply ≠ .relay msg)
    (head : ∀ uid payload, reply = .peerMsg uid payload →
      ∃ c rest, payload = c :: rest ∧ isSpace c = false) :
    Received sentOffers reply (receive setup (.loop sentOffers) (reply.text setup.repr)) := by
  have error : reply.IsError → Received sentOffers reply
      (receive setup (.loop sentOffers) (reply.text setup.repr)) := by
    intro error
    have starts : startsWith (reply.text setup.repr) "ERROR".toList = true :=
      startsWith_iff.mpr error.text_prefix
    have ends : round sentOffers (reply.text setup.repr) = .return := by
      unfold round
      rw [if_pos starts]
    simp only [receive, ends]
    cases reply with
    | notFound peer => exact .stopped rfl
    | busy peer => exact .stopped rfl
    | notInRoom peer => exact .stopped rfl
    | invalidRoom room => exact .stopped rfl
    | alreadyInRoom => exact .stopped rfl
    | _ => exact error.elim
  cases reply with
  | hello => exact .stopped rfl
  | sessionOk => exact .stopped rfl
  | roomOk room peers =>
      have words : ∀ uid ∈ peers, Word uid := fun uid inside => (clean uid inside).1
      have listed : round sentOffers ((Reply.roomOk room peers).text setup.repr) =
          .continue (peers.toFinset ∪ sentOffers) (peers.map getOfferSdp) := by
        rw [Reply.text_roomOk, round_roomOk words]
        congr 1
        ext other
        rw [mem_insertAll, Finset.mem_union, List.mem_toFinset]
      rw [receive_continue listed]
      exact .listed
  | peerJoined uid =>
      have joined : round sentOffers ((Reply.peerJoined uid).text setup.repr) =
          .continue sentOffers [] := by
        rw [Reply.text_peerJoined, round_joined (clean uid List.mem_cons_self).1]
      rw [receive_continue joined]
      exact .joined
  | peerLeft uid =>
      have left : round sentOffers ((Reply.peerLeft uid).text setup.repr) =
          .continue sentOffers [] := by
        rw [Reply.text_peerLeft, round_left (clean uid List.mem_cons_self).1]
      rw [receive_continue left]
      exact .left
  | peerMsg uid payload =>
      obtain ⟨c, rest, rfl, notSpace⟩ := head uid payload rfl
      have answered : round sentOffers ((Reply.peerMsg uid (c :: rest)).text setup.repr) =
          .continue sentOffers
            (if uid ∈ sentOffers then [] else [getAnswerSdp (c :: rest) uid]) := by
        rw [Reply.text_peerMsg, round_message (clean uid List.mem_cons_self).1 notSpace]
      rw [receive_continue answered]
      exact .message
  | relay msg => exact absurd rfl (notRelay msg)
  | _ => exact error True.intro

/-! ## What one move does -/

namespace Party

variable {setup : Setup} {s s' : Party} {move : Move} {c k : ConnId} {act : Act}

/-- The processes' part in a step of the server. -/
structure Served (setup : Setup) (s s' : Party) (act : Act) : Prop where
  history : s'.history = s.history
  stage : ∀ c, s'.stage c = s.stage c ∨ s'.stage c = .ended
  outbox : ∀ c, ∀ text ∈ s'.outbox c,
    text ∈ s.outbox c ∨ text = "HELLO ".toList ++ setup.peerId c
  handed : ∀ k msg order pick, act = .recv k msg order pick → msg ∈ s.outbox k

theorem serve_served {world : World} {next : Party} (served : s.serve setup act = some next) :
    Served setup s { next with world := world } act := by
  have same : ∀ c, ∀ text ∈ s.outbox c,
      text ∈ s.outbox c ∨ text = "HELLO ".toList ++ setup.peerId c := fun _ _ => Or.inl
  cases act with
  | connect k =>
      cases served
      refine ⟨rfl, fun _ => Or.inl rfl, ?_, by simp⟩
      intro c text inside
      by_cases self : c = k
      · subst self
        have grown : text ∈ Function.update s.outbox c
            (s.outbox c ++ ["HELLO ".toList ++ setup.peerId c]) c := inside
        rw [Function.update_self] at grown
        exact (List.mem_append.mp grown).imp_right List.mem_singleton.mp
      · have other : text ∈ Function.update s.outbox k
            (s.outbox k ++ ["HELLO ".toList ++ setup.peerId k]) c := inside
        rw [Function.update_of_ne self] at other
        exact Or.inl other
  | lose k =>
      cases served
      refine ⟨rfl, ?_, same, by simp⟩
      intro c
      by_cases self : c = k
      · subst self
        exact Or.inr (Function.update_self ..)
      · exact Or.inl (Function.update_of_ne self ..)
  | recv k msg order pick =>
      simp only [serve] at served
      split at served
      · cases served
      · next text rest first =>
          split at served
          · next same =>
              cases served
              subst same
              refine ⟨rfl, fun _ => Or.inl rfl, ?_, ?_⟩
              · intro c text' inside
                by_cases self : c = k
                · subst self
                  have later : text' ∈ rest := by simpa using inside
                  rw [first]
                  exact Or.inl (List.mem_cons_of_mem _ later)
                · have other : text' ∈ s.outbox c := by simpa [self] using inside
                  exact Or.inl other
              · rintro _ _ _ _ ⟨⟩
                rw [first]
                exact List.mem_cons_self
          · cases served
  | _ =>
      cases served
      exact ⟨rfl, fun _ => Or.inl rfl, same, by simp⟩

/-- The two kinds of move. -/
theorem step_cases (h : s.step setup move = some s') :
    (∃ act, move = .server act ∧ s.world.step act = some s'.world ∧ Served setup s s' act) ∨
    ∃ k reply, move = .take k ∧ s.stage k ≠ .ended ∧
      (s.world.mailTo k)[(s.history k).length]? = some reply ∧
      s' = s.taken setup k reply := by
  cases move with
  | server act =>
      obtain ⟨world, fires, served⟩ := Option.bind_eq_some_iff.mp h
      obtain ⟨next, serves, rfl⟩ := Option.map_eq_some_iff.mp served
      exact Or.inl ⟨act, rfl, fires, serve_served serves⟩
  | take k =>
      simp only [step] at h
      split at h
      · cases h
      · cases h
      · next reply unread alive =>
          cases h
          exact Or.inr ⟨k, reply, rfl, alive, unread, rfl⟩

end Party

end GstWebrtc.Multiparty.RoomClient
