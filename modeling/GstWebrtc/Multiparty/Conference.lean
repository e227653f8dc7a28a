import GstWebrtc.Multiparty.Client
import GstWebrtc.Signalling.Handshake

/-!
# The server and its clients

The server composed with clients, some of which run the multiparty program.
What a program sends waits in its outbox until the server takes it; what the
server sends waits on the connection until the program does.  The other clients
send whatever they like.
-/

namespace GstWebrtc.Multiparty

open GstWebrtc.Base GstWebrtc.Base.CText GstWebrtc.Signalling

/-- The code outside the repository, and the programs at the connections. -/
structure Setup where
  repr : Text → Text
  parse : Text → Option Json
  program : ConnId → Option Program

/-- A text of a program, with the number of texts the program had taken when it sent it. -/
structure Letter where
  text : Text
  seen : Nat
  deriving DecidableEq

structure Conference where
  world : World
  client : ConnId → Except Fault Client
  outbox : ConnId → List Letter
  taken : ConnId → Nat

inductive Move where
  | server (act : Act)
  | take (conn : ConnId) (gst : Gst)
  | report (conn : ConnId) (gst : Gst) (event : Client.Event)

namespace Conference

variable (setup : Setup)

def empty : Conference where
  world := World.empty
  client _ := .ok Client.opened
  outbox _ := []
  taken _ := 0

/-- The texts on connection `k` that its client has not taken yet. -/
def inbox (s : Conference) (k : ConnId) : List Text :=
  ((s.world.mailTo k).drop (s.taken k)).map fun r => r.text setup.repr

/-- Program `k` is in a new state, and sends `texts`. -/
def put (s : Conference) (k : ConnId) (client : Except Fault Client) (texts : List Text) :
    Conference :=
  { s with
    client := Function.update s.client k client
    outbox := Function.update s.outbox k
      (s.outbox k ++ texts.map fun text => ⟨text, s.taken k⟩) }

/-- The result of a callback of program `k`. -/
def callback (s : Conference) (k : ConnId) :
    Except Fault (Client × List Text) → Conference
  | .ok (cl, texts) => s.put k (.ok cl) texts
  | .error fault => s.put k (.error fault) []

/-- `on_server_connected`, in a client that runs `prog`. -/
def start (s : Conference) (k : ConnId) (prog : Program) : Conference :=
  match Client.registerWithServer prog Client.opened with
  | none => s.put k (.ok Client.opened) []
  | some (cl, texts) => s.put k (.ok cl) texts

/-- What a step of the server means for the program at the connection. -/
def serve (s : Conference) : Act → Option Conference
  | .connect k =>
      match setup.program k with
      | none => some s
      | some prog => some (s.start k prog)
  | .recv k msg _ _ =>
      match setup.program k with
      | none => some s
      | some _ =>
          match s.outbox k with
          | [] => none
          | letter :: rest =>
              if letter.text = msg then
                some { s with outbox := Function.update s.outbox k rest }
              else none
  | _ => some s

def step (s : Conference) : Move → Option Conference
  | .server act =>
      (s.world.step act).bind fun world =>
        (s.serve setup act).map fun next => { next with world := world }
  | .take k gst =>
      match setup.program k, s.client k, s.inbox setup k with
      | some prog, .ok cl, data :: _ =>
          if cl.looping then
            some ({ s with taken := Function.update s.taken k (s.taken k + 1) }.callback k
              (cl.onServerMessage prog setup.parse gst data))
          else none
      | _, _, _ => none
  -- the elements of the pipeline are those of the peers in the list
  | .report k gst event =>
      match setup.program k, s.client k with
      | some _, .ok cl =>
          if cl.looping && cl.peers.any fun peer => peer = event.peerId then
            some (s.callback k (cl.onEvent gst event))
          else none
      | _, _ => none

end Conference

/-- The server and the clients, started before any of them is connected. -/
def composed (setup : Setup) : Machine Conference Move := ⟨Conference.empty, Conference.step setup⟩

/-! ## What one move does to the program at one connection -/

/-- The outcome of a callback of the program at connection `c`. -/
inductive Called (c : ConnId) (s s' : Conference) : Except Fault (Client × List Text) → Prop where
  | returned {cl texts} (client : s'.client c = .ok cl)
      (outbox : s'.outbox c = s.outbox c ++ texts.map fun text => ⟨text, s'.taken c⟩) :
      Called c s s' (.ok (cl, texts))
  | faulted {fault} (client : s'.client c = .error fault) (outbox : s'.outbox c = s.outbox c) :
      Called c s s' (.error fault)

inductive Moves (setup : Setup) (c : ConnId) (prog : Program) (s s' : Conference) :
    Move → Prop where
  | apart {move} (client : s'.client c = s.client c) (outbox : s'.outbox c = s.outbox c)
      (taken : s'.taken c = s.taken c)
      (unread : ∀ msg order pick, move ≠ .server (.recv c msg order pick))
      (unmade : move ≠ .server (.connect c)) : Moves setup c prog s s' move
  | started (client : s'.client c = .ok { Client.opened with appState := .serverRegistering })
      (outbox : s'.outbox c = s.outbox c ++ [⟨"HELLO ".toList ++ prog.localId.text, s.taken c⟩])
      (taken : s'.taken c = s.taken c) : Moves setup c prog s s' (.server (.connect c))
  | handed {letter rest order pick} (client : s'.client c = s.client c)
      (first : s.outbox c = letter :: rest) (outbox : s'.outbox c = rest)
      (taken : s'.taken c = s.taken c) :
      Moves setup c prog s s' (.server (.recv c letter.text order pick))
  | took {gst cl data rest} (client : s.client c = .ok cl) (looping : cl.looping = true)
      (inbox : s.inbox setup c = data :: rest) (taken : s'.taken c = s.taken c + 1)
      (called : Called c s s' (cl.onServerMessage prog setup.parse gst data)) :
      Moves setup c prog s s' (.take c gst)
  | reported {gst cl event} (client : s.client c = .ok cl) (looping : cl.looping = true)
      (listed : event.peerId ∈ cl.peers) (taken : s'.taken c = s.taken c)
      (called : Called c s s' (cl.onEvent gst event)) :
      Moves setup c prog s s' (.report c gst event)

namespace Conference

variable {setup : Setup} {s s' : Conference} {move : Move} {c k : ConnId}

theorem callback_called {before : Conference} (same : s.outbox c = before.outbox c)
    (result : Except Fault (Client × List Text)) : Called c before (s.callback c result) result := by
  cases result with
  | error fault => exact .faulted (Function.update_self ..) (by simp [callback, put, same])
  | ok made =>
      refine .returned (Function.update_self ..) ?_
      rw [← same]
      exact Function.update_self ..

@[simp] theorem callback_world (result : Except Fault (Client × List Text)) :
    (s.callback k result).world = s.world := by
  cases result <;> rfl

@[simp] theorem callback_taken (result : Except Fault (Client × List Text)) :
    (s.callback k result).taken = s.taken := by
  cases result <;> rfl

theorem callback_client_of_ne (other : c ≠ k) (result : Except Fault (Client × List Text)) :
    (s.callback k result).client c = s.client c := by
  cases result <;> exact Function.update_of_ne other ..

theorem callback_outbox_of_ne (other : c ≠ k) (result : Except Fault (Client × List Text)) :
    (s.callback k result).outbox c = s.outbox c := by
  cases result <;> exact Function.update_of_ne other ..

theorem start_of_ne (other : c ≠ k) (prog : Program) :
    (s.start k prog).client c = s.client c ∧ (s.start k prog).outbox c = s.outbox c := by
  unfold start
  split <;> exact ⟨Function.update_of_ne other .., Function.update_of_ne other ..⟩

/-- The server's part of the state. -/
theorem step_world (h : s.step setup move = some s') :
    (∃ act, move = .server act ∧ s.world.step act = some s'.world) ∨
    ((∀ act, move ≠ .server act) ∧ s'.world = s.world) := by
  cases move with
  | server act =>
      obtain ⟨world, fires, served⟩ := Option.bind_eq_some_iff.mp h
      obtain ⟨next, -, rfl⟩ := Option.map_eq_some_iff.mp served
      exact Or.inl ⟨act, rfl, fires⟩
  | take k gst =>
      refine Or.inr ⟨by simp, ?_⟩
      simp only [step] at h
      split at h
      · split at h
        · cases h
          simp
        · cases h
      · cases h
  | report k gst event =>
      refine Or.inr ⟨by simp, ?_⟩
      simp only [step] at h
      split at h
      · split at h
        · cases h
          simp
        · cases h
      · cases h

theorem absent_of_connect (h : s.step setup (.server (.connect c)) = some s') :
    s.world.phase c = .absent := by
  obtain ⟨world, fires, -⟩ := Option.bind_eq_some_iff.mp h
  exact (phase_connect fires).1

theorem serve_moves {prog : Program} {act : Act} {world : World} {next : Conference}
    (own : setup.program c = some prog) (served : s.serve setup act = some next) :
    Moves setup c prog s { next with world := world } (.server act) := by
  cases act with
  | connect k =>
      simp only [serve] at served
      by_cases self : c = k
      · subst self
        rw [own] at served
        cases served
        exact .started (Function.update_self ..) (Function.update_self ..) rfl
      · have unmade : Move.server (.connect k) ≠ .server (.connect c) := by
          rintro ⟨⟩
          exact self rfl
        split at served
        · cases served
          exact .apart rfl rfl rfl (by simp) unmade
        · cases served
          obtain ⟨client, outbox⟩ := start_of_ne (s := s) self _
          refine .apart client outbox ?_ (by simp) unmade
          unfold start
          split <;> rfl
  | recv k msg order pick =>
      simp only [serve] at served
      split at served
      · next free =>
          cases served
          refine .apart rfl rfl rfl ?_ (by simp)
          rintro _ _ _ ⟨⟩
          cases own.symm.trans free
      · split at served
        · cases served
        · next letter rest first =>
            split at served
            · next same =>
                cases served
                by_cases self : c = k
                · subst self
                  subst same
                  exact .handed rfl first (Function.update_self ..) rfl
                · refine .apart rfl (Function.update_of_ne self ..) rfl ?_ (by simp)
                  rintro _ _ _ ⟨⟩
                  exact self rfl
            · cases served
  | _ =>
      cases served
      exact .apart rfl rfl rfl (by simp) (by simp)

theorem step_moves {prog : Program} (own : setup.program c = some prog)
    (h : s.step setup move = some s') : Moves setup c prog s s' move := by
  cases move with
  | server act =>
      obtain ⟨world, -, served⟩ := Option.bind_eq_some_iff.mp h
      obtain ⟨next, serves, rfl⟩ := Option.map_eq_some_iff.mp served
      exact serve_moves own serves
  | take k gst =>
      simp only [step] at h
      split at h
      · next prog' cl data rest program client inbox =>
          split at h
          · next looping =>
              cases h
              by_cases self : c = k
              · subst self
                cases own.symm.trans program
                refine .took client looping inbox (by simp) ?_
                apply callback_called
                rfl
              · refine .apart ?_ ?_ ?_ (by simp) (by simp)
                · exact callback_client_of_ne self _
                · exact callback_outbox_of_ne self _
                · rw [callback_taken]
                  exact Function.update_of_ne self ..
          · cases h
      · cases h
  | report k gst event =>
      simp only [step] at h
      split at h
      · next client =>
          split at h
          · next allowed =>
              obtain ⟨looping, listed⟩ := Bool.and_eq_true_iff.mp allowed
              obtain ⟨peer, inside, same⟩ := List.any_eq_true.mp listed
              cases of_decide_eq_true same
              cases h
              by_cases self : c = k
              · subst self
                exact .reported client looping inside (by simp) (callback_called rfl _)
              · exact .apart (callback_client_of_ne self _) (callback_outbox_of_ne self _)
                  (by simp) (by simp) (by simp)
          · cases h
      · cases h

end Conference

/-- A checked list of moves of `n` connections is a restricted run. -/
theorem exists_checked {setup : Setup} {n : Nat} {check : Conference → Move → Bool}
    {allowed : Conference → Move → Prop}
    (below : ∀ s act, check s (.server act) = true → act.conn < n)
    (sound : ∀ s move, AbsentFrom n s.world → check s move = true → allowed s move)
    (moves : List Move) (test : Conference → Bool)
    (passes : ((composed setup).execIf check Conference.empty moves).any test = true) :
    ∃ s, (composed setup).Reachable allowed s ∧ AbsentFrom n s.world ∧ test s = true := by
  have preserved : ∀ s move next, AbsentFrom n s.world → check s move = true →
      (composed setup).step s move = some next → AbsentFrom n next.world := by
    intro s move next absent ok fires
    rcases Conference.step_world fires with ⟨act, rfl, steps⟩ | ⟨-, same⟩
    · exact absent.step (below s act ok) steps
    · rwa [same]
  cases done : (composed setup).execIf check Conference.empty moves with
  | none => simp [done] at passes
  | some s =>
      have absent : AbsentFrom n Conference.empty.world := fun _ _ => rfl
      obtain ⟨run, last⟩ := (composed setup).run_of_execIf (fun s => AbsentFrom n s.world) sound
        preserved moves absent done
      exact ⟨s, run, last, by simpa [done] using passes⟩

end GstWebrtc.Multiparty
