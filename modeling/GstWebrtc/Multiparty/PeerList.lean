import GstWebrtc.Multiparty.Conference

/-!
# The peer list follows the room

The client's list lags behind the server by the texts that are still queued.
Folding these into the list gives the room without the client, and no text names
a peer that the list does not have when the text is taken.
-/

namespace GstWebrtc.Multiparty

open GstWebrtc.Base GstWebrtc.Base.CText GstWebrtc.Base.PyText GstWebrtc.Signalling Client

/-! ## What the client makes of a reply -/

section Texts

variable {repr : Text → Text} {peers : List Text} {r : Reply}

theorem noNul_joinSpace {words : List Uid} (clean : ∀ word ∈ words, Clean word) :
    '\x00' ∉ joinSpace words := by
  induction words with
  | nil => exact List.not_mem_nil
  | cons word rest ih =>
      have first := (clean word List.mem_cons_self).2
      cases rest with
      | nil => exact first
      | cons next more =>
          have others := ih fun other inside => clean other (List.mem_cons_of_mem _ inside)
          have joined : joinSpace (word :: next :: more) = word ++ ' ' :: joinSpace (next :: more) :=
            rfl
          rw [joined, List.mem_append, List.mem_cons, not_or, not_or]
          exact ⟨first, by decide, others⟩

theorem ofData_joined {uid : Uid} (clean : Clean uid) :
    ofData ((Reply.peerJoined uid).text repr) = "ROOM_PEER_JOINED".toList ++ ' ' :: uid := by
  have literal : "ROOM_PEER_JOINED ".toList = "ROOM_PEER_JOINED".toList ++ [' '] := by decide
  rw [Reply.text_peerJoined, ofData_spaced literal (by decide), ofData_eq_self clean.2]

theorem ofData_left {uid : Uid} (clean : Clean uid) :
    ofData ((Reply.peerLeft uid).text repr) = "ROOM_PEER_LEFT".toList ++ ' ' :: uid := by
  have literal : "ROOM_PEER_LEFT ".toList = "ROOM_PEER_LEFT".toList ++ [' '] := by decide
  rw [Reply.text_peerLeft, ofData_spaced literal (by decide), ofData_eq_self clean.2]

/-- The fields of a peer's message, and the lookup that comes first. -/
theorem onServerMessage_message {prog : Program} {parse : Text → Option Json} {gst : Gst}
    {cl : Client} {uid payload : Text} (clean : Clean uid) (noNul : '\x00' ∉ payload) :
    cl.onServerMessage prog parse gst ("ROOM_PEER_MSG ".toList ++ uid ++ ' ' :: payload) =
      ((cl.findPeerFromList (some uid)).bind fun _ =>
        cl.handlePeerMessage parse gst (some payload)).map fun cl => (cl, []) := by
  have data : "ROOM_PEER_MSG ".toList ++ uid ++ ' ' :: payload =
      "ROOM_PEER_MSG".toList ++ ' ' :: (uid ++ ' ' :: payload) := by
    rw [List.append_assoc]
    rfl
  have free : '\x00' ∉ "ROOM_PEER_MSG".toList ++ ' ' :: (uid ++ ' ' :: payload) := by
    have command : '\x00' ∉ "ROOM_PEER_MSG".toList := by decide
    have space : '\x00' ≠ ' ' := by decide
    simp only [List.mem_append, List.mem_cons, not_or]
    exact ⟨command, space, clean.2, space, noNul⟩
  have starts : hasPrefix ("ROOM_PEER_MSG".toList ++ ' ' :: (uid ++ ' ' :: payload))
      "ROOM_PEER_MSG".toList = true := hasPrefix_iff.mpr (List.prefix_append _ _)
  rw [data, onServerMessage_peer (by
    rw [ofData_eq_self free]
    exact hasPrefix_shorter starts (by decide)), ofData_eq_self free]
  unfold onRoomPeer
  rw [if_pos starts]
  dsimp only
  rw [strsplit_three (by decide) clean.1.space_not_mem]
  simp only [List.getElem?_cons_succ, List.getElem?_cons_zero]
  cases cl.findPeerFromList (some uid) <;> rfl

/-- A reply without names begins in none of the ways that the client acts on. -/
theorem plain_of_error (error : r.IsError) (p : Text) (apart : ¬ p <+: "ERROR".toList)
    (apart' : ¬ "ERROR".toList <+: p) : ¬ hasPrefix (ofData (r.text repr)) p = true := by
  obtain ⟨rest, whole⟩ : "ERROR".toList <+: r.text repr := error.text_prefix
  have starts : hasPrefix (ofData (r.text repr)) "ERROR".toList = true := by
    rw [← whole, ofData_append (by decide)]
    exact hasPrefix_iff.mpr (List.prefix_append _ _)
  exact hasPrefix_apart starts apart' apart

/-- The list follows the notices, and no other text changes it. -/
theorem peersAfter_text (clean : ∀ p ∈ r.names, Clean p) (notRelay : ∀ msg, r ≠ .relay msg) :
    peersAfter peers (r.text repr) = (Reply.notices [r]).foldl Notice.keep peers := by
  have error : r.IsError → peersAfter peers (r.text repr) = peers := by
    intro error
    unfold peersAfter
    dsimp only
    rw [if_neg (plain_of_error error _ (by decide) (by decide)),
      if_neg (plain_of_error error _ (by decide) (by decide)),
      if_neg (plain_of_error error _ (by decide) (by decide))]
  cases r with
  | hello => rfl
  | sessionOk => rfl
  | roomOk room list =>
      have words : ∀ p ∈ list, Clean p := clean
      have literal : "ROOM_OK ".toList = "ROOM_OK".toList ++ [' '] := by decide
      have text : ofData ((Reply.roomOk room list).text repr) =
          "ROOM_OK".toList ++ ' ' :: joinSpace list := by
        rw [Reply.text_roomOk, ofData_spaced literal (by decide),
          ofData_eq_self (noNul_joinSpace words)]
      have starts : hasPrefix ("ROOM_OK".toList ++ ' ' :: joinSpace list) "ROOM_OK ".toList =
          true := hasPrefix_iff.mpr ⟨joinSpace list, spaced literal⟩
      unfold peersAfter
      dsimp only
      rw [text, if_pos starts, strsplit_list (by decide) fun p inside =>
        (words p inside).1.space_not_mem]
      cases list with
      | nil => rfl
      | cons p rest =>
          rw [if_neg (by simp)]
          exact if_neg (words p List.mem_cons_self).1.ne_nil
  | peerJoined uid =>
      have text : ofData ((Reply.peerJoined uid).text repr) =
          "ROOM_PEER_JOINED".toList ++ ' ' :: uid := ofData_joined (clean uid List.mem_cons_self)
      have starts : hasPrefix ("ROOM_PEER_JOINED".toList ++ ' ' :: uid)
          "ROOM_PEER_JOINED".toList = true := hasPrefix_iff.mpr (List.prefix_append _ _)
      unfold peersAfter
      dsimp only
      rw [text, if_neg (hasPrefix_apart starts (by decide) (by decide)), if_pos starts,
        strsplit_two (by decide)]
      rfl
  | peerLeft uid =>
      have text : ofData ((Reply.peerLeft uid).text repr) =
          "ROOM_PEER_LEFT".toList ++ ' ' :: uid := ofData_left (clean uid List.mem_cons_self)
      have starts : hasPrefix ("ROOM_PEER_LEFT".toList ++ ' ' :: uid)
          "ROOM_PEER_LEFT".toList = true := hasPrefix_iff.mpr (List.prefix_append _ _)
      unfold peersAfter
      dsimp only
      rw [text, if_neg (hasPrefix_apart starts (by decide) (by decide)),
        if_neg (hasPrefix_apart starts (by decide) (by decide)), if_pos starts,
        strsplit_two (by decide)]
      -- the two sides compare texts by different instances
      exact congrArg (fun inst : BEq Text => @List.erase Text inst peers uid)
        (lawful_beq_subsingleton _ _)
  | peerMsg uid msg =>
      have starts : hasPrefix (ofData ((Reply.peerMsg uid msg).text repr))
          "ROOM_PEER_MSG".toList = true := by
        change hasPrefix (ofData ("ROOM_PEER_MSG".toList ++ ' ' :: (uid ++ ' ' :: msg))) _ = true
        rw [ofData_append (by decide)]
        exact hasPrefix_iff.mpr (List.prefix_append _ _)
      unfold peersAfter
      dsimp only
      rw [if_neg (hasPrefix_apart starts (by decide) (by decide)),
        if_neg (hasPrefix_apart starts (by decide) (by decide)),
        if_neg (hasPrefix_apart starts (by decide) (by decide))]
      rfl
  | relay msg => exact absurd rfl (notRelay msg)
  | _ => exact error True.intro

/-- A text asks for the peer that it names. -/
theorem looksUp_text (clean : ∀ p ∈ r.names, Clean p) (notRelay : ∀ msg, r ≠ .relay msg)
    {peerId : Option Text} (asks : looksUp (r.text repr) = some peerId) :
    ∃ uid, peerId = some uid ∧ (r = .peerLeft uid ∨ ∃ msg, r = .peerMsg uid msg) := by
  have error : r.IsError → looksUp (r.text repr) = none := by
    intro error
    unfold looksUp
    dsimp only
    rw [if_neg (plain_of_error error _ (by decide) (by decide)),
      if_neg (plain_of_error error _ (by decide) (by decide))]
  cases r with
  | hello => cases asks
  | sessionOk => cases asks
  | roomOk room list =>
      have starts : hasPrefix (ofData ((Reply.roomOk room list).text repr))
          "ROOM_OK ".toList = true := by
        rw [Reply.text_roomOk, ofData_append (by decide)]
        exact hasPrefix_iff.mpr (List.prefix_append _ _)
      unfold looksUp at asks
      dsimp only at asks
      rw [if_neg (hasPrefix_apart starts (by decide) (by decide)),
        if_neg (hasPrefix_apart starts (by decide) (by decide))] at asks
      cases asks
  | peerJoined uid =>
      have starts : hasPrefix (ofData ((Reply.peerJoined uid).text repr))
          "ROOM_PEER_JOINED ".toList = true := by
        rw [Reply.text_peerJoined, ofData_append (by decide)]
        exact hasPrefix_iff.mpr (List.prefix_append _ _)
      unfold looksUp at asks
      dsimp only at asks
      rw [if_neg (hasPrefix_apart starts (by decide) (by decide)),
        if_neg (hasPrefix_apart starts (by decide) (by decide))] at asks
      cases asks
  | peerLeft uid =>
      have text : ofData ((Reply.peerLeft uid).text repr) =
          "ROOM_PEER_LEFT".toList ++ ' ' :: uid := ofData_left (clean uid List.mem_cons_self)
      have starts : hasPrefix ("ROOM_PEER_LEFT".toList ++ ' ' :: uid)
          "ROOM_PEER_LEFT".toList = true := hasPrefix_iff.mpr (List.prefix_append _ _)
      unfold looksUp at asks
      dsimp only at asks
      rw [text, if_neg (hasPrefix_apart starts (by decide) (by decide)), if_pos starts,
        strsplit_two (by decide)] at asks
      cases asks
      exact ⟨uid, rfl, Or.inl rfl⟩
  | peerMsg uid msg =>
      have own := clean uid List.mem_cons_self
      have text : ofData ((Reply.peerMsg uid msg).text repr) =
          "ROOM_PEER_MSG".toList ++ ' ' :: (uid ++ ' ' :: ofData msg) := by
        change ofData ("ROOM_PEER_MSG".toList ++ ([' '] ++ (uid ++ ([' '] ++ msg)))) = _
        rw [ofData_append (by decide), ofData_append (by decide), ofData_append own.2,
          ofData_append (by decide)]
        rfl
      have starts : hasPrefix ("ROOM_PEER_MSG".toList ++ ' ' :: (uid ++ ' ' :: ofData msg))
          "ROOM_PEER_MSG".toList = true := hasPrefix_iff.mpr (List.prefix_append _ _)
      unfold looksUp at asks
      dsimp only at asks
      rw [text, if_pos starts, strsplit_three (by decide) own.1.space_not_mem] at asks
      cases asks
      exact ⟨uid, rfl, Or.inr ⟨msg, rfl⟩⟩
  | relay msg => exact absurd rfl (notRelay msg)
  | _ =>
      rw [error True.intro] at asks
      cases asks

end Texts

/-- The list after the texts of some mail. -/
theorem foldl_peersAfter {repr : Text → Text} {mail : List Reply}
    (clean : ∀ r ∈ mail, ∀ p ∈ r.names, Clean p) (notRelay : ∀ r ∈ mail, ∀ msg, r ≠ .relay msg)
    (peers : List Text) :
    (mail.map fun r => r.text repr).foldl peersAfter peers =
      (Reply.notices mail).foldl Notice.keep peers := by
  induction mail generalizing peers with
  | nil => rfl
  | cons r rest ih =>
      have first : peersAfter peers (r.text repr) = (Reply.notices [r]).foldl Notice.keep peers :=
        peersAfter_text (clean r List.mem_cons_self) (notRelay r List.mem_cons_self)
      have split : Reply.notices (r :: rest) = Reply.notices [r] ++ Reply.notices rest :=
        Reply.notices_append [r] rest
      rw [List.map_cons, List.foldl_cons, first, split, List.foldl_append]
      exact ih (fun s inside => clean s (List.mem_cons_of_mem _ inside))
        (fun s inside => notRelay s (List.mem_cons_of_mem _ inside)) _

/-- The peers in a list that follows the notices of some mail were named by it. -/
theorem told_of_kept {mail : List Reply} {peer : Uid}
    (listed : peer ∈ (Reply.notices mail).foldl Notice.keep []) : ∃ r ∈ mail, peer ∈ r.names := by
  obtain ⟨n, told, about⟩ := Notice.mem_kept listed
  obtain ⟨r, inside, notice⟩ := List.mem_filterMap.mp told
  rw [Reply.about_of_notice notice] at about
  exact ⟨r, inside, about⟩

/-! ## The invariant -/

/-- The moves that claim nothing of the world but orderly handling and uids without NUL. -/
def Tame (s : Conference) : Move → Prop
  | .server act => Orderly s.world act ∧ nulFree s.world act = true
  | _ => True

/-- What the client of connection `c` has taken of its mail. -/
def Conference.read (s : Conference) (c : ConnId) : List Reply :=
  (s.world.mailTo c).take (s.taken c)

/-- A text of the client is a peer message only if it names a peer that the client was told of. -/
def Named (mail : List Reply) (text : Text) : Prop :=
  "ROOM_PEER_MSG".toList <+: text →
    ∃ peer body, text = sendRoomPeerMsg ('\x7b' :: body) peer ∧ ∃ r ∈ mail, peer ∈ r.names

structure Follows (c : ConnId) (s : Conference) : Prop where
  heard : Heard c s.world
  taken : s.taken c ≤ (s.world.mailTo c).length
  peers : ∀ cl, s.client c = .ok cl → cl.looping = true →
    cl.peers = (Reply.notices (s.read c)).foldl Notice.keep []
  letters : ∀ letter ∈ s.outbox c, Named (s.world.mailTo c) letter.text
  alive : s.client c ≠ .error .nullDereference

theorem Named.mono {mail more : List Reply} {text : Text} (h : Named mail text) :
    Named (mail ++ more) text := by
  intro starts
  obtain ⟨peer, body, same, r, inside, named⟩ := h starts
  exact ⟨peer, body, same, r, List.mem_append_left _ inside, named⟩

/-- The commands of the handshake name no peer. -/
theorem named_command {mail : List Reply} {command rest : Text}
    (apart : ¬ command <+: "ROOM_PEER_MSG".toList) (apart' : ¬ "ROOM_PEER_MSG".toList <+: command) :
    Named mail (command ++ rest) :=
  fun starts => absurd starts (not_prefix_append apart' apart)

namespace Follows

variable {setup : Setup} {prog : Program} {s s' : Conference} {move : Move} {c : ConnId}

/-- The peers in the list were named by the mail. -/
theorem named (inv : Follows c s) {cl : Client} (client : s.client c = .ok cl)
    (looping : cl.looping = true) {peer : Text} (listed : peer ∈ cl.peers) :
    ∃ r ∈ s.world.mailTo c, peer ∈ r.names := by
  rw [inv.peers cl client looping] at listed
  obtain ⟨r, inside, about⟩ := told_of_kept listed
  exact ⟨r, List.mem_of_mem_take inside, about⟩

/-- The client names a peer that it was told of, so not itself. -/
theorem notSelf (inv : Follows c s) {letter : Letter} (inside : letter ∈ s.outbox c)
    {order : List Uid} {pick : Option Uid} :
    NotSelf c s.world (.recv c letter.text order pick) := by
  rintro msg _ _ u roomId word payload ⟨⟩ waiting starts fields
  obtain ⟨peer, body, text, r, told, named⟩ := inv.letters letter inside starts
  have clean := inv.heard.clean r told peer named
  have found : splitMax 2 letter.text = ["ROOM_PEER_MSG".toList, peer, '\x7b' :: body] := by
    have command : Word "ROOM_PEER_MSG".toList := by decide
    have head : isSpace '\x7b' = false := by decide
    rw [text]
    exact splitMax_two command clean.1 head
  cases fields.symm.trans found
  exact inv.heard.unnamed u (congrArg Phase.past? waiting) r told named

theorem heard_step (inv : Follows c s) (allowed : Tame s move)
    (moves : Moves setup c prog s s' move) (h : s.step setup move = some s') :
    Heard c s'.world := by
  rcases Conference.step_world h with ⟨act, rfl, fires⟩ | ⟨-, same⟩
  · refine inv.heard.step allowed.1 allowed.2 ?_ fires
    cases moves with
    | apart client outbox taken unread unmade =>
        rintro msg order pick u roomId word payload rfl
        exact absurd rfl (unread msg order pick)
    | started client outbox taken =>
        rintro msg order pick u roomId word payload ⟨⟩
    | handed client first outbox taken =>
        exact inv.notSelf (by rw [first]; exact List.mem_cons_self)
  · rw [same]
    exact inv.heard

/-- The next text that the client takes, and how its list goes on. -/
theorem next (inv : Follows c s) {data : Text} {rest : List Text}
    (inbox : s.inbox setup c = data :: rest) :
    ∃ r, (s.world.mailTo c).take (s.taken c + 1) = s.read c ++ [r] ∧
      data = r.text setup.repr ∧ r ∈ s.world.mailTo c ∧ r.Fits (s.read c) ∧
      s.taken c + 1 ≤ (s.world.mailTo c).length := by
  have within : s.taken c < (s.world.mailTo c).length := by
    by_contra beyond
    rw [Conference.inbox, List.drop_eq_nil_of_le (Nat.le_of_not_lt beyond)] at inbox
    cases inbox
  have whole : s.world.mailTo c =
      s.read c ++ (s.world.mailTo c)[s.taken c] :: (s.world.mailTo c).drop (s.taken c + 1) := by
    rw [← List.drop_eq_getElem_cons within, Conference.read, List.take_append_drop]
  refine ⟨(s.world.mailTo c)[s.taken c], ?_, ?_, List.getElem_mem within, ?_, within⟩
  · rw [Conference.read, List.take_append_getElem within]
  · rw [Conference.inbox, List.drop_eq_getElem_cons within, List.map_cons] at inbox
    exact (List.cons.inj inbox).1.symm
  · have grown := inv.heard.grown
    rw [whole] at grown
    exact grown.fits

theorem grown_take (inv : Follows c s) (seen : Nat) :
    Grown Reply.Fits ((s.world.mailTo c).take seen) := by
  have all := inv.heard.grown
  rw [← List.take_append_drop seen (s.world.mailTo c)] at all
  exact all.of_append

/-- The client finds every peer that a text asks for. -/
theorem finds (inv : Follows c s) {cl : Client} (client : s.client c = .ok cl)
    (looping : cl.looping = true) {data : Text} {rest : List Text}
    (inbox : s.inbox setup c = data :: rest) : Finds cl.peers data := by
  obtain ⟨r, -, rfl, inside, fits, -⟩ := inv.next inbox
  intro peerId asks
  obtain ⟨uid, rfl, about⟩ := looksUp_text (inv.heard.clean r inside)
    (inv.heard.not_relay inside) asks
  have known : uid ∈ Notice.view (Reply.notices (s.read c)) := by
    rcases about with rfl | ⟨msg, rfl⟩
    · exact fits _ rfl
    · exact fits
  refine ⟨uid, ?_, rfl⟩
  have grown : Grown Reply.Fits (s.read c) := inv.grown_take _
  rw [inv.peers cl client looping, ← List.mem_toFinset,
    (Notice.kept_of_grown (Reply.notices_grown grown)).2]
  exact known

/-- A client that is not connected yet was told nothing. -/
theorem untold (inv : Follows c s) (absent : s.world.phase c = .absent) :
    Reply.notices (s.read c) = [] := by
  have nothing : Reply.notices (s.world.mailTo c) = [] := by
    refine inv.heard.notices_nil fun room sent => ?_
    have greets := (inv.heard.orderly.mail.greeted c room sent).1
    rw [absent] at greets
    cases greets
  rw [← List.take_append_drop (s.taken c) (s.world.mailTo c), Reply.notices_append,
    List.append_eq_nil_iff] at nothing
  exact nothing.1

/-- What the server adds to the mail changes nothing that the client has taken. -/
theorem read_of_append (inv : Follows c s) {more : List Reply} (taken : s'.taken c = s.taken c)
    (mail : s'.world.mailTo c = s.world.mailTo c ++ more) : s'.read c = s.read c := by
  rw [Conference.read, Conference.read, taken, mail, List.take_append_of_le_length inv.taken]

theorem step (inv : Follows c s) (own : setup.program c = some prog) (allowed : Tame s move)
    (h : s.step setup move = some s') : Follows c s' := by
  have moves := Conference.step_moves own h
  have heard := inv.heard_step allowed moves h
  have mail : ∃ more, s'.world.mailTo c = s.world.mailTo c ++ more := by
    rcases Conference.step_world h with ⟨act, rfl, fires⟩ | ⟨-, same⟩
    · exact World.mailTo_step fires c
    · exact ⟨[], by rw [same, List.append_nil]⟩
  obtain ⟨more, mail⟩ := mail
  have within : s'.taken c = s.taken c → s'.taken c ≤ (s'.world.mailTo c).length := by
    intro taken
    rw [taken, mail, List.length_append]
    exact inv.taken.trans (Nat.le_add_right _ _)
  have kept : ∀ letter ∈ s.outbox c, Named (s'.world.mailTo c) letter.text := by
    intro letter inside
    rw [mail]
    exact (inv.letters letter inside).mono
  cases moves with
  | apart client outbox taken unread unmade =>
      refine ⟨heard, within taken, ?_, ?_, ?_⟩
      · rw [client, inv.read_of_append taken mail]
        exact inv.peers
      · rw [outbox]
        exact kept
      · rw [client]
        exact inv.alive
  | started client outbox taken =>
      refine ⟨heard, within taken, ?_, ?_, ?_⟩
      · intro cl same looping
        cases client.symm.trans same
        rw [inv.read_of_append taken mail, inv.untold (Conference.absent_of_connect h)]
        rfl
      · rw [outbox]
        intro letter inside
        rcases List.mem_append.mp inside with before | now
        · exact kept letter before
        · cases List.mem_singleton.mp now
          exact named_command (by decide) (by decide)
      · rw [client]
        simp
  | handed client first outbox taken =>
      refine ⟨heard, within taken, ?_, ?_, ?_⟩
      · rw [client, inv.read_of_append taken mail]
        exact inv.peers
      · rw [outbox]
        intro letter inside
        refine kept letter ?_
        rw [first]
        exact List.mem_cons_of_mem _ inside
      · rw [client]
        exact inv.alive
  | @took gst cl data rest client looping inbox taken called =>
      obtain ⟨r, read, text, inside, -, further⟩ := inv.next inbox
      have now : s'.read c = s.read c ++ [r] := by
        rw [Conference.read, taken, mail, List.take_append_of_le_length further, read]
      have before : s'.taken c ≤ (s'.world.mailTo c).length := by
        rw [taken, mail, List.length_append]
        exact further.trans (Nat.le_add_right _ _)
      generalize result : cl.onServerMessage prog setup.parse gst data = outcome at called
      cases called with
      | @returned cl' texts client' outbox =>
          refine ⟨heard, before, ?_, ?_, ?_⟩
          · intro cl'' same looping'
            cases client'.symm.trans same
            rw [onServerMessage_peers result looping', inv.peers cl client looping, now,
              Reply.notices_append, List.foldl_append, text]
            exact peersAfter_text (inv.heard.clean r inside) (inv.heard.not_relay inside)
          · rw [outbox]
            intro letter sent
            rcases List.mem_append.mp sent with earlier | answer
            · exact kept letter earlier
            · obtain ⟨text, written, rfl⟩ := List.mem_map.mp answer
              rw [onServerMessage_sent result text written]
              exact named_command (by decide) (by decide)
          · rw [client']
            simp
      | @faulted fault client' outbox =>
          refine ⟨heard, before, ?_, ?_, ?_⟩
          · intro cl' same
            cases client'.symm.trans same
          · rw [outbox]
            exact kept
          · rw [client']
            rintro ⟨⟩
            exact onServerMessage_fault (inv.finds client looping inbox) result
  | @reported gst cl event client looping listed taken called =>
      generalize result : cl.onEvent gst event = outcome at called
      cases called with
      | @returned cl' texts client' outbox =>
          obtain ⟨same, written⟩ := onEvent_sent result
          refine ⟨heard, within taken, ?_, ?_, ?_⟩
          · intro cl'' returned looping'
            cases client'.symm.trans returned
            rw [same, inv.read_of_append taken mail]
            exact inv.peers cl client looping
          · rw [outbox]
            intro letter sent
            rcases List.mem_append.mp sent with earlier | now
            · exact kept letter earlier
            · obtain ⟨text, inside, rfl⟩ := List.mem_map.mp now
              obtain ⟨body, text⟩ := written text inside
              obtain ⟨r, told, named⟩ := inv.named client looping listed
              intro starts
              refine ⟨event.peerId, body, text, r, ?_, named⟩
              rw [mail]
              exact List.mem_append_left _ told
          · rw [client']
            simp
      | @faulted fault client' outbox =>
          refine ⟨heard, within taken, ?_, ?_, ?_⟩
          · intro cl' returned
            cases client'.symm.trans returned
          · rw [outbox]
            exact kept
          · rw [client']
            rintro ⟨⟩
            exact onEvent_fault result

theorem of_reachable (own : setup.program c = some prog)
    (run : (composed setup).Reachable Tame s) : Follows c s := by
  refine run.invariant ?_ fun _ _ _ inv allowed fires => inv.step own allowed fires
  refine ⟨.init c, Nat.zero_le _, ?_, fun letter inside => absurd inside List.not_mem_nil, ?_⟩
  · rintro cl ⟨⟩ -
    rfl
  · rintro ⟨⟩

/-- The list that the client makes of the first texts. -/
theorem fold_take (inv : Follows c s) (seen : Nat) :
    (((s.world.mailTo c).take seen).map fun r => r.text setup.repr).foldl peersAfter [] =
      (Reply.notices ((s.world.mailTo c).take seen)).foldl Notice.keep [] := by
  have earlier : ∀ r ∈ (s.world.mailTo c).take seen, r ∈ s.world.mailTo c :=
    fun r inside => List.mem_of_mem_take inside
  exact foldl_peersAfter (fun r inside => inv.heard.clean r (earlier r inside))
    (fun r inside => inv.heard.not_relay (earlier r inside)) []

/-- The whole mail of the client makes the list of the room without the client. -/
theorem folded (inv : Follows c s) {cl : Client} (client : s.client c = .ok cl)
    (looping : cl.looping = true) :
    (s.inbox setup c).foldl peersAfter cl.peers =
      (Reply.notices (s.world.mailTo c)).foldl Notice.keep [] := by
  have queued : ∀ r ∈ (s.world.mailTo c).drop (s.taken c), r ∈ s.world.mailTo c :=
    fun r inside => List.mem_of_mem_drop inside
  rw [Conference.inbox, foldl_peersAfter (fun r inside => inv.heard.clean r (queued r inside))
    (fun r inside => inv.heard.not_relay (queued r inside)), inv.peers cl client looping,
    ← List.foldl_append, Conference.read, ← Reply.notices_append, List.take_append_drop]

end Follows

/-- What the server knows of the room of a client, once no message is being handled. -/
theorem view_of_sent {c : ConnId} {w : World} (heard : Heard c w) (quiet : w.Quiet)
    {room : RoomId} {u : Uid} {roomId : Option RoomId} {point : LoopPoint}
    (sent : SentRoomOk w c room) (running : w.phase c = .running u roomId point) :
    Notice.view (Reply.notices (w.mailTo c)) = (w.server.members room).erase u := by
  have idle := quiet c
  have standing := heard.orderly.views.tables.standing c
  rw [running] at idle standing
  obtain ⟨status, found, inside, -⟩ := standing
  have entered : status = some room := by
    refine ((heard.orderly.mail.seats c u roomId point running).answered room status sent
      found).resolve_right ?_
    rintro rfl
    cases idle
  obtain ⟨peer, registered, view⟩ :=
    heard.orderly.views.agree quiet room u (inside room entered)
  cases found.symm.trans registered
  rw [World.view_mailTo]
  exact view

/--
The peer list of a multiparty client in orderly runs.  Folding the queued texts
into it gives the server's room without the client, and whoever a text asks for
is in the list when the text is taken.
-/
theorem peer_list_tracks {setup : Setup} {c : ConnId} {prog : Program} {s : Conference}
    (own : setup.program c = some prog) (run : (composed setup).Reachable Tame s) :
    (∀ cl room u roomId point, s.world.Quiet → SentRoomOk s.world c room →
      s.world.phase c = .running u roomId point → s.client c = .ok cl → cl.looping = true →
      ((s.inbox setup c).foldl peersAfter cl.peers).Nodup ∧
        ((s.inbox setup c).foldl peersAfter cl.peers).toFinset =
          (s.world.server.members room).erase u) ∧
    (∀ cl data rest, s.client c = .ok cl → cl.looping = true →
      s.inbox setup c = data :: rest → Finds cl.peers data) ∧
    s.client c ≠ .error .nullDereference := by
  have inv := Follows.of_reachable own run
  refine ⟨?_, fun cl data rest client looping inbox => inv.finds client looping inbox, inv.alive⟩
  intro cl room u roomId point quiet sent running client looping
  have kept := Notice.kept_of_grown (Reply.notices_grown inv.heard.grown)
  rw [inv.folded client looping, ← view_of_sent inv.heard quiet sent running]
  exact kept

/-! ## Checking a composed run -/

/-- `Tame` on the first `n` connections, the only ones in use. -/
def tameBelow (n : Nat) (s : Conference) : Move → Bool
  | .server act => sequentialBelow n s.world act && noSession act && nulFree s.world act
  | _ => true

theorem exists_tame (setup : Setup) (n : Nat) (moves : List Move) (test : Conference → Bool)
    (passes : ((composed setup).execIf (tameBelow n) Conference.empty moves).any test = true) :
    ∃ s, (composed setup).Reachable Tame s ∧ AbsentFrom n s.world ∧ test s = true := by
  have parts : ∀ {s act}, tameBelow n s (.server act) = true →
      sequentialBelow n s.world act = true ∧ noSession act = true ∧
        nulFree s.world act = true := by
    intro s act ok
    simpa only [tameBelow, Bool.and_eq_true, and_assoc] using ok
  refine exists_checked ?_ ?_ moves test passes
  · intro s act ok
    exact of_decide_eq_true (Bool.and_eq_true_iff.mp (parts ok).1).1
  · intro s move absent ok
    cases move with
    | server act =>
        obtain ⟨below, rooms, uids⟩ := parts ok
        exact ⟨⟨sequential_of_below absent below, rooms⟩, uids⟩
    | _ => trivial

/-- The room of the checked runs. -/
def roomR : CString := ⟨"r".toList, by decide⟩

/-- The client with the id `x`. -/
def programX : Program := ⟨⟨"x".toList, by decide⟩, roomR⟩

/-- One multiparty client, at connection `0`. -/
def soloist : Setup where
  repr := id
  parse _ := some (.object [])
  program k := if k = 0 then some programX else none

/-- A member writes to the client that has joined, and leaves. -/
theorem peer_list_tracks_left :
    ∃ (s : Conference) (cl : Client), s.client 0 = .ok cl ∧ cl.peers = ["y".toList] ∧
      s.inbox soloist 0 = ["ROOM_PEER_MSG y hi".toList, "ROOM_PEER_LEFT y".toList] ∧
      ((s.inbox soloist 0).foldl peersAfter cl.peers).toFinset =
        (s.world.server.members "r".toList).erase "x".toList := by
  obtain ⟨s, run, absent, test⟩ := exists_tame soloist 2
    ((greeting 1 "y" ++ [Act.recv 1 "ROOM r".toList [] none, .resume 1 false none] ++
        greeting 0 "x").map Move.server ++
      [Move.take 0 ⟨true, true⟩, .server (.recv 0 "ROOM r".toList ["y".toList] none),
        .server (.resume 0 false (some "y".toList)), .server (.resume 0 false none),
        .take 0 ⟨true, true⟩, .server (.recv 1 "ROOM_PEER_MSG x hi".toList [] none),
        .server (.resume 1 false none), .server (.lose 1),
        .server (.closed 1 (some "x".toList)), .server (.resume 1 false none),
        .server (.resume 1 false none)])
    (fun s => quietBelow 2 s.world && (s.world.phase 0).past? = some "x".toList &&
      (0, Reply.roomOk "r".toList ["y".toList]) ∈ s.world.log &&
      (s.client 0).toOption = some ⟨.roomCallOffering, ["y".toList], true, true⟩ &&
      s.inbox soloist 0 = ["ROOM_PEER_MSG y hi".toList, "ROOM_PEER_LEFT y".toList])
    (by decide)
  simp only [Bool.and_eq_true, decide_eq_true_eq] at test
  obtain ⟨⟨⟨⟨idle, past⟩, sent⟩, joined⟩, inbox⟩ := test
  have quiet := absent.quiet idle
  obtain ⟨roomId, running⟩ := Phase.running_of_idle (quiet 0) past
  cases client : s.client 0 with
  | error fault => simp [client, Except.toOption] at joined
  | ok cl =>
      simp only [client, Except.toOption, Option.some.injEq] at joined
      subst joined
      exact ⟨s, _, client, rfl, inbox, ((peer_list_tracks rfl run).1 _ _ _ roomId _ quiet
        ⟨_, sent⟩ running client rfl).2⟩

end GstWebrtc.Multiparty
