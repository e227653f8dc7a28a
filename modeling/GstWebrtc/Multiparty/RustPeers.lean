import GstWebrtc.Base.Roster
import GstWebrtc.Multiparty.RustClient

/-!
# Uids as numbers

The server knows its peers by strings, and the Rust client keys and addresses
them by `u32`.  Its map mirrors the room exactly when every uid is the text that
its number is printed as.
-/

namespace GstWebrtc.Multiparty.RustClient

open GstWebrtc.Base GstWebrtc.Base.RustText
open GstWebrtc.Base.PyText (Word joinSpace)

/-- What the server tells a client in a room after `ROOM_OK`. -/
inductive Told where
  | joined (uid : Text)
  | left (uid : Text)
  | message (uid payload : Text)

namespace Told

def text : Told → Text
  | joined uid => "ROOM_PEER_JOINED ".toList ++ uid
  | left uid => "ROOM_PEER_LEFT ".toList ++ uid
  | message uid payload => "ROOM_PEER_MSG ".toList ++ uid ++ ' ' :: payload

/-- The uids announced and not yet left. -/
def apply (uids : List Text) : Told → List Text
  | joined uid => uid :: uids
  | left uid => uids.erase uid
  | message _ _ => uids

end Told

/-- The uids announced and not yet left, when `listed` came with `ROOM_OK`. -/
def announced (listed : List Text) (told : List Told) : List Text := told.foldl Told.apply listed

/-- What a server may tell whose members have distinct uids that are read as numbers. -/
def Consistent (listed : List Text) (before : List Told) : Told → Prop
  | .joined uid => (parseU32 uid).isSome ∧ uid ∉ announced listed before
  | .left uid | .message uid _ => uid ∈ announced listed before

/-- Every message that the client sends for the peer names the uid. -/
structure Peer.Names (lib : Libraries) (peer : Peer) (uid : Text) : Prop where
  offer : ∀ sdp, peer.onOfferCreated lib sdp =
    "ROOM_PEER_MSG ".toList ++ uid ++ ' ' :: lib.toStr (.sdp "offer".toList sdp)
  answer : ∀ sdp, peer.onAnswerCreated lib sdp =
    "ROOM_PEER_MSG ".toList ++ uid ++ ' ' :: lib.toStr (.sdp "answer".toList sdp)
  candidate : ∀ mlineindex candidate, peer.onIceCandidate lib mlineindex candidate =
    "ROOM_PEER_MSG ".toList ++ uid ++ ' ' :: lib.toStr (.ice candidate mlineindex)

/-- The client's map has one entry for each uid, to which the uid's messages go and which
names the uid in its own. -/
structure App.Mirrors (lib : Libraries) (uids : List Text) (app : App) : Prop where
  entries : (app.peers.keys.map some).Perm (uids.map parseU32)
  entry : ∀ uid ∈ uids, ∃ number peer, parseU32 uid = some number ∧
    app.peers.lookup number = some peer ∧ peer.Names lib uid ∧
    ∀ payload, app.handleWebsocketMessage lib (Told.message uid payload).text =
      (app, (peer.handleMessage lib payload).map some)

/-- The text that a number is printed as. -/
def Canonical (uid : Text) : Prop := ∃ number, uid = displayU32 number

theorem displayU32_injective : Function.Injective displayU32 := by
  intro m n same
  have read := congrArg parseU32 same
  rw [parseU32_displayU32, parseU32_displayU32] at read
  exact Option.some.inj read

theorem Peer.Names.canonical {lib : Libraries} {peer : Peer} {uid : Text} (h : peer.Names lib uid) :
    Canonical uid := by
  have offer := h.offer []
  have same := List.append_cancel_right offer
  exact ⟨peer.peerId, (List.append_cancel_left same).symm⟩

theorem App.Mirrors.canonical {lib : Libraries} {app : App} {uids : List Text} {uid : Text}
    (h : app.Mirrors lib uids) (inside : uid ∈ uids) : Canonical uid := by
  obtain ⟨number, peer, read, found, names, dispatched⟩ := h.entry uid inside
  exact names.canonical

/-! ## The invariant -/

/-- The entries are those of the canonical `uids`, under their numbers. -/
structure App.Tracks (uids : List Text) (app : App) : Prop where
  keys : (app.peers.keys.map displayU32).Perm uids
  ids : ∀ number peer, app.peers.lookup number = some peer → peer.peerId = number

namespace App.Tracks

variable {lib : Libraries} {app : App} {uids : List Text} {number : UInt32}

theorem empty : App.Tracks [] ⟨∅⟩ where
  keys := List.Perm.refl _
  ids number peer found := by
    rw [AList.lookup_empty] at found
    cases found

theorem number_fresh (tracks : App.Tracks uids app) (fresh : displayU32 number ∉ uids) :
    number ∉ app.peers := by
  intro inside
  exact fresh (tracks.keys.subset (List.mem_map_of_mem (AList.mem_keys.mp inside)))

theorem addPeer (offer : Bool) (tracks : App.Tracks uids app) (builds : lib.Builds)
    (fresh : displayU32 number ∉ uids) :
    ∃ app', app.addPeer lib (displayU32 number) offer = (app', .ok ()) ∧
      App.Tracks (displayU32 number :: uids) app' := by
  have missing := tracks.number_fresh fresh
  refine ⟨_, addPeer_new builds (parseU32_displayU32 number) missing, ?_, ?_⟩
  · change ((app.peers.insert number _).keys.map displayU32).Perm _
    rw [AList.keys_insert, List.erase_of_not_mem fun inside => missing (AList.mem_keys.mpr inside)]
    exact tracks.keys.cons _
  · intro other peer found
    by_cases same : other = number
    · subst same
      rw [AList.lookup_insert] at found
      cases found
      rfl
    · rw [AList.lookup_insert_ne same] at found
      exact tracks.ids other peer found

theorem removePeer (tracks : App.Tracks uids app) :
    App.Tracks (uids.erase (displayU32 number)) (app.removePeer (displayU32 number)).1 := by
  rw [removePeer_read (parseU32_displayU32 number)]
  refine ⟨?_, ?_⟩
  · change ((app.peers.erase number).keys.map displayU32).Perm _
    rw [AList.keys_erase, List.map_erase displayU32_injective]
    exact tracks.keys.erase _
  · intro other peer found
    by_cases same : other = number
    · subst same
      rw [AList.lookup_erase] at found
      cases found
    · rw [AList.lookup_erase_ne same] at found
      exact tracks.ids other peer found

theorem mirrors (tracks : App.Tracks uids app) : app.Mirrors lib uids where
  entries := by
    have read := tracks.keys.map parseU32
    rw [List.map_map] at read
    have same : parseU32 ∘ displayU32 = some := funext parseU32_displayU32
    rwa [same] at read
  entry uid listed := by
    obtain ⟨number, inside, rfl⟩ := List.mem_map.mp (tracks.keys.symm.subset listed)
    have present : (app.peers.lookup number).isSome :=
      AList.lookup_isSome.mpr (AList.mem_keys.mpr inside)
    obtain ⟨peer, found⟩ := Option.isSome_iff_exists.mp present
    have id := tracks.ids number peer found
    refine ⟨number, peer, parseU32_displayU32 number, found, ⟨?_, ?_, ?_⟩, ?_⟩
    · intro sdp
      rw [← id]
      rfl
    · intro sdp
      rw [← id]
      rfl
    · intro mlineindex candidate
      rw [← id]
      rfl
    · intro payload
      exact handleWebsocketMessage_message (parseU32_displayU32 number) found

/-- The peers of `ROOM_OK` are added one after the other. -/
theorem new {listed : List Text} (tracks : App.Tracks uids app) (builds : lib.Builds)
    (canonical : ∀ uid ∈ listed, Canonical uid) (distinct : (listed ++ uids).Nodup) :
    ∃ app', listed.foldlM
        (fun app peer =>
          match app.addPeer lib peer true with
          | (app, .ok ()) => .ok app
          | (_, .error failure) => .error failure)
        app = (.ok app' : Except Failure App) ∧ App.Tracks (listed ++ uids) app' := by
  induction listed generalizing app uids with
  | nil => exact ⟨app, rfl, tracks⟩
  | cons uid listed ih =>
      obtain ⟨number, rfl⟩ := canonical uid List.mem_cons_self
      obtain ⟨fresh, rest⟩ := List.nodup_cons.mp distinct
      obtain ⟨added, result, tracks⟩ := App.Tracks.addPeer true tracks builds
        fun inside => fresh (List.mem_append_right _ inside)
      have moved : (listed ++ displayU32 number :: uids).Perm
          (displayU32 number :: listed ++ uids) := List.perm_middle
      obtain ⟨app', results, tracks'⟩ := ih tracks
        (fun other inside => canonical other (List.mem_cons_of_mem _ inside))
        (moved.nodup_iff.mpr distinct)
      refine ⟨app', ?_, tracks'.keys.trans moved, tracks'.ids⟩
      rw [List.foldlM_cons, result]
      exact results

/-- One text more. -/
theorem told {listed : List Text} {before : List Told} {t : Told}
    (tracks : App.Tracks (announced listed before) app) (builds : lib.Builds)
    (fits : Consistent listed before t)
    (canonical : ∀ uid, uid ∈ announced listed before ∨ t = .joined uid → Canonical uid) :
    App.Tracks (announced listed (before ++ [t])) (app.handleWebsocketMessage lib t.text).1 := by
  have after : announced listed (before ++ [t]) = Told.apply (announced listed before) t := by
    rw [announced, List.foldl_append]
    rfl
  rw [after]
  cases t with
  | joined uid =>
      obtain ⟨number, rfl⟩ := canonical uid (Or.inr rfl)
      obtain ⟨app', result, tracks'⟩ := App.Tracks.addPeer false tracks builds fits.2
      have handled : (app.handleWebsocketMessage lib (Told.joined (displayU32 number)).text).1 =
          (app.addPeer lib (displayU32 number) false).1 :=
        handleWebsocketMessage_joined (parseU32_displayU32 number)
      rw [handled, result]
      exact tracks'
  | left uid =>
      obtain ⟨number, rfl⟩ := canonical uid (Or.inl fits)
      have handled : (app.handleWebsocketMessage lib (Told.left (displayU32 number)).text).1 =
          (app.removePeer (displayU32 number)).1 :=
        handleWebsocketMessage_left (parseU32_displayU32 number)
      rw [handled]
      exact tracks.removePeer
  | message uid payload =>
      have mirrors : app.Mirrors lib (announced listed before) := tracks.mirrors
      obtain ⟨number, peer, read, found, names, dispatched⟩ := mirrors.entry uid fits
      rw [dispatched payload]
      exact tracks

end App.Tracks

section Runs

variable {lib : Libraries} {listed : List Text} {told : List Told}

/-- All uids that are announced at some point are canonical. -/
theorem canonical_of_announced (canonical : ∀ uid, uid ∈ listed ∨ .joined uid ∈ told → Canonical uid) :
    ∀ uid ∈ announced listed told, Canonical uid := by
  induction told using List.reverseRecOn with
  | nil => exact fun uid inside => canonical uid (Or.inl inside)
  | append_singleton before t ih =>
      have earlier : ∀ uid ∈ announced listed before, Canonical uid :=
        ih fun uid source => canonical uid (source.imp id (List.mem_append_left _))
      intro uid inside
      rw [announced, List.foldl_append] at inside
      cases t with
      | joined other =>
          rcases List.mem_cons.mp inside with rfl | inside
          · exact canonical uid (Or.inr (List.mem_append_right _ List.mem_cons_self))
          · exact earlier uid inside
      | left other => exact earlier uid (List.mem_of_mem_erase inside)
      | message other payload => exact earlier uid inside

/-- After each text of a run the entries are those of the uids. -/
theorem run_tracks {start : App} (builds : lib.Builds) (tracks : App.Tracks listed start)
    (consistent : Grown (Consistent listed) told)
    (canonical : ∀ uid, uid ∈ listed ∨ .joined uid ∈ told → Canonical uid) :
    App.Tracks (announced listed told) (start.run lib (told.map Told.text)) := by
  induction consistent with
  | nil => exact tracks
  | @snoc before t grown fits ih =>
      have earlier : ∀ uid, uid ∈ listed ∨ .joined uid ∈ before → Canonical uid :=
        fun uid source => canonical uid (source.imp id (List.mem_append_left _))
      have last := ih earlier
      rw [App.run, List.map_append, List.foldl_append]
      refine last.told builds fits ?_
      intro uid source
      rcases source with inside | rfl
      · exact canonical_of_announced earlier uid inside
      · exact canonical uid (Or.inr (List.mem_append_right _ List.mem_cons_self))

end Runs

/--
From the reply to `ROOM` on, after every text that a consistent server sends, the
client's map mirrors the room, exactly when every uid that is listed or joins is
the text that its number is printed as.
-/
theorem peers_mirror_iff {lib : Libraries} {listed : List Text} {told : List Told}
    (builds : lib.Builds) (distinct : listed.Nodup)
    (numbers : ∀ uid ∈ listed, (parseU32 uid).isSome)
    (consistent : Grown (Consistent listed) told) :
    (∃ start, asyncMain lib ("ROOM_OK ".toList ++ joinSpace listed) = .ok start ∧
      ∀ before, before <+: told →
        App.Mirrors lib (announced listed before) (start.run lib (before.map Told.text))) ↔
    ∀ uid, uid ∈ listed ∨ .joined uid ∈ told → Canonical uid := by
  have words : ∀ uid ∈ listed, Word uid := by
    intro uid inside
    obtain ⟨number, read⟩ := Option.isSome_iff_exists.mp (numbers uid inside)
    exact word_of_parseU32 read
  constructor
  · rintro ⟨start, -, mirrors⟩ uid source
    rcases source with inside | inside
    · exact (mirrors [] List.nil_prefix).canonical inside
    · obtain ⟨before, after, rfl⟩ := List.append_of_mem inside
      have some : before ++ [.joined uid] <+: before ++ .joined uid :: after := ⟨after, by simp⟩
      have announces : uid ∈ announced listed (before ++ [.joined uid]) := by
        rw [announced, List.foldl_append]
        exact List.mem_cons_self
      exact (mirrors _ some).canonical announces
  · intro canonical
    obtain ⟨start, built, tracks⟩ := App.Tracks.empty.new builds
      (fun uid inside => canonical uid (Or.inl inside)) (by simpa using distinct)
    rw [List.append_nil] at tracks
    refine ⟨start, ?_, ?_⟩
    · unfold asyncMain
      rw [initialPeers_roomOk words]
      exact built
    · rintro before ⟨after, rfl⟩
      have earlier : ∀ uid, uid ∈ listed ∨ .joined uid ∈ before → Canonical uid :=
        fun uid source => canonical uid (source.imp id (List.mem_append_left _))
      exact (run_tracks builds tracks consistent.of_append earlier).mirrors

/-! ## A uid with leading zeros -/

/-- serde and GStreamer, for messages without characters that JSON escapes. -/
def plainLibraries : Libraries where
  fromStr _ := .error "expected value at line 1 column 1".toList
  toStr
    | .ice candidate sdpMLineIndex => "\x7b\"ice\":\x7b\"candidate\":\"".toList ++ candidate ++
        "\",\"sdpMLineIndex\":".toList ++ displayU32 sdpMLineIndex ++ "\x7d\x7d".toList
    | .sdp type sdp => "\x7b\"sdp\":\x7b\"type\":\"".toList ++ type ++ "\",\"sdp\":\"".toList ++
        sdp ++ "\"\x7d\x7d".toList
  parseBuffer _ := true
  binError := none
  linkError := none
  debug text := '"' :: text ++ ['"']

theorem peers_mirror_seven :
    ∃ start, asyncMain plainLibraries ("ROOM_OK ".toList ++ joinSpace ["7".toList]) = .ok start ∧
      ∀ before, before <+: [.joined "8".toList, .left "7".toList] →
        App.Mirrors plainLibraries (announced ["7".toList] before)
          (start.run plainLibraries (before.map Told.text)) := by
  have seven : (parseU32 "7".toList).isSome = true := by decide
  have eight : (parseU32 "8".toList).isSome = true := by decide
  have joins : Grown (Consistent ["7".toList])
      ([] ++ [.joined "8".toList] ++ [.left "7".toList]) :=
    .snoc (.snoc .nil ⟨eight, by decide⟩) (List.mem_cons_of_mem _ List.mem_cons_self)
  refine (peers_mirror_iff ⟨rfl, rfl⟩ (List.nodup_singleton _) ?_ joins).mpr ?_
  · intro uid listed
    rw [List.mem_singleton.mp listed]
    exact seven
  · intro uid source
    have named : uid = "7".toList ∨ uid = "8".toList := by simpa using source
    rcases named with rfl | rfl
    · exact ⟨7, rfl⟩
    · exact ⟨8, rfl⟩

/-- The peer `007` is kept as 7, and addressed as `7`. -/
theorem peer_renamed :
    ¬ ∀ (lib : Libraries) (listed : List Text) (told : List Told), lib.Builds → listed.Nodup →
      (∀ uid ∈ listed, (parseU32 uid).isSome) → Grown (Consistent listed) told →
      ∃ start, asyncMain lib ("ROOM_OK ".toList ++ joinSpace listed) = .ok start ∧
        ∀ before, before <+: told →
          App.Mirrors lib (announced listed before) (start.run lib (before.map Told.text)) := by
  intro mirrored
  have number : (parseU32 "007".toList).isSome = true := by decide
  obtain ⟨start, built, mirrors⟩ := mirrored plainLibraries ["007".toList] [] ⟨rfl, rfl⟩
    (List.nodup_singleton _) (fun uid inside => List.mem_singleton.mp inside ▸ number) .nil
  obtain ⟨printed, same⟩ := (mirrors [] List.nil_prefix).canonical List.mem_cons_self
  have read := congrArg parseU32 same
  rw [parseU32_displayU32] at read
  have seven : parseU32 "007".toList = some 7 := by decide
  cases seven.symm.trans read
  exact absurd same (by decide)

end GstWebrtc.Multiparty.RustClient
