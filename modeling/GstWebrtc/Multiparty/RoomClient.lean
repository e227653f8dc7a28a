import GstWebrtc.Base.PyText
import Mathlib.Data.Finset.Lattice.Fold

/-!
# The Python room client

The loop of `room-client.py`: what it makes of each text, and what it sends.
The offers that it has sent are all that it remembers.
-/

namespace GstWebrtc.Multiparty.RoomClient

open GstWebrtc.Base GstWebrtc.Base.PyText

/-- `json.dumps({'sdp': 'initial sdp'})`. -/
def initialSdp : Text := "\x7b\"sdp\": \"initial sdp\"\x7d".toList

/-- `json.dumps({'sdp': 'reply sdp'})`. -/
def replySdp : Text := "\x7b\"sdp\": \"reply sdp\"\x7d".toList

/-- `get_offer_sdp`. -/
def getOfferSdp (peerId : Text) : Text :=
  "ROOM_PEER_MSG ".toList ++ peerId ++ ' ' :: initialSdp

/-- `get_answer_sdp`, which only prints the offer. -/
def getAnswerSdp (_offer peerId : Text) : Text :=
  "ROOM_PEER_MSG ".toList ++ peerId ++ ' ' :: replySdp

/-- How a round of the loop ends. -/
inductive Round where
  | continue (sentOffers : Finset Text) (sent : List Text)
  | return
  /-- The `ValueError` of an assignment to several names. -/
  | raise

/-- `_, *room_peers = msg.split()`. -/
def roomPeers (msg : Text) : Option (List Text) :=
  match split msg with
  | [] => none
  | _ :: roomPeers => some roomPeers

/-- `_, peer_id = msg.split(maxsplit=1)`. -/
def noticeFields (msg : Text) : Option Text :=
  match splitMax 1 msg with
  | [_, peerId] => some peerId
  | _ => none

/-- `_, peer_id, msg = msg.split(maxsplit=2)`. -/
def messageFields (msg : Text) : Option (Text × Text) :=
  match splitMax 2 msg with
  | [_, peerId, msg] => some (peerId, msg)
  | _ => none

/-- One round of the loop of `hello`, from the receipt of `msg`. -/
def round (sentOffers : Finset Text) (msg : Text) : Round :=
  if startsWith msg "ERROR".toList then .return
  else if startsWith msg "ROOM_OK".toList then
    match roomPeers msg with
    | none => .raise
    | some roomPeers =>
        .continue (roomPeers.foldl (fun sentOffers peerId => insert peerId sentOffers) sentOffers)
          (roomPeers.map getOfferSdp)
  else if startsWith msg "ROOM_PEER".toList then
    if startsWith msg "ROOM_PEER_JOINED".toList then
      match noticeFields msg with
      | none => .raise
      | some _ => .continue sentOffers []
    else if startsWith msg "ROOM_PEER_LEFT".toList then
      match noticeFields msg with
      | none => .raise
      | some _ => .continue sentOffers []
    else if startsWith msg "ROOM_PEER_MSG".toList then
      match messageFields msg with
      | none => .raise
      | some (peerId, msg) =>
          if peerId ∈ sentOffers then .continue sentOffers []
          else .continue sentOffers [getAnswerSdp msg peerId]
    else .return
  else .return

section Rounds

variable {sentOffers : Finset Text} {uids : List Text} {uid payload : Text} {c : Char}

theorem mem_insertAll {other : Text} :
    other ∈ uids.foldl (fun sentOffers peerId => insert peerId sentOffers) sentOffers ↔
      other ∈ uids ∨ other ∈ sentOffers := by
  induction uids generalizing sentOffers with
  | nil => simp
  | cons uid uids ih =>
      rw [List.foldl_cons, ih, Finset.mem_insert, List.mem_cons]
      tauto

theorem roomPeers_roomOk (words : ∀ uid ∈ uids, Word uid) :
    roomPeers ("ROOM_OK ".toList ++ joinSpace uids) = some uids := by
  have fields : split ("ROOM_OK ".toList ++ joinSpace uids) = "ROOM_OK".toList :: uids :=
    split_list (show Word "ROOM_OK".toList by decide) words
  unfold roomPeers
  rw [fields]

theorem startsWith_command {p command rest : Text} (begins : p <+: command) :
    startsWith (command ++ rest) p = true :=
  startsWith_iff.mpr (begins.trans (List.prefix_append _ _))

theorem messageFields_message (word : Word uid) (head : isSpace c = false) :
    messageFields ("ROOM_PEER_MSG ".toList ++ uid ++ ' ' :: c :: payload) =
      some (uid, c :: payload) := by
  have fields : splitMax 2 ("ROOM_PEER_MSG ".toList ++ uid ++ ' ' :: c :: payload) =
      ["ROOM_PEER_MSG".toList, uid, c :: payload] := by
    rw [List.append_assoc, spaced (show _ = "ROOM_PEER_MSG".toList ++ [' '] by decide)]
    exact splitMax_two (show Word "ROOM_PEER_MSG".toList by decide) word head
  unfold messageFields
  rw [fields]

theorem noticeFields_notice {command : Text} (named : Word command) (word : Word uid) :
    noticeFields (command ++ ' ' :: uid) = some uid := by
  have fields : splitMax 1 (command ++ ' ' :: uid) = [command, uid] := by
    rw [splitMax_word_space 0 _ named isSpace_space, splitMax_word 0 word]
  unfold noticeFields
  rw [fields]

/-- The client offers to everyone that the server lists. -/
theorem round_roomOk (words : ∀ uid ∈ uids, Word uid) :
    round sentOffers ("ROOM_OK ".toList ++ joinSpace uids) =
      .continue (uids.foldl (fun sentOffers peerId => insert peerId sentOffers) sentOffers)
        (uids.map getOfferSdp) := by
  have starts : startsWith ("ROOM_OK ".toList ++ joinSpace uids) "ROOM_OK".toList = true :=
    startsWith_iff.mpr ⟨' ' :: joinSpace uids, rfl⟩
  unfold round
  rw [if_neg (by simp [startsWith]), if_pos starts, roomPeers_roomOk words]

/-- A message is an answer when an offer was sent to its sender. -/
theorem round_message (word : Word uid) (head : isSpace c = false) :
    round sentOffers ("ROOM_PEER_MSG ".toList ++ uid ++ ' ' :: c :: payload) =
      .continue sentOffers (if uid ∈ sentOffers then [] else [getAnswerSdp (c :: payload) uid]) := by
  have starts : startsWith ("ROOM_PEER_MSG ".toList ++ uid ++ ' ' :: c :: payload)
      "ROOM_PEER_MSG".toList = true :=
    startsWith_iff.mpr ⟨' ' :: (uid ++ ' ' :: c :: payload), by simp⟩
  have room : startsWith ("ROOM_PEER_MSG ".toList ++ uid ++ ' ' :: c :: payload)
      "ROOM_PEER".toList = true :=
    startsWith_iff.mpr ⟨"_MSG ".toList ++ (uid ++ ' ' :: c :: payload), by simp⟩
  unfold round
  rw [if_neg (by simp [startsWith]), if_neg (by simp [startsWith]), if_pos room,
    if_neg (by simp [startsWith]), if_neg (by simp [startsWith]), if_pos starts,
    messageFields_message word head]
  dsimp only
  split <;> rfl

theorem round_joined (word : Word uid) :
    round sentOffers ("ROOM_PEER_JOINED ".toList ++ uid) = .continue sentOffers [] := by
  rw [spaced (show _ = "ROOM_PEER_JOINED".toList ++ [' '] by decide)]
  have fields : noticeFields ("ROOM_PEER_JOINED".toList ++ ' ' :: uid) = some uid :=
    noticeFields_notice (by decide) word
  have starts : startsWith ("ROOM_PEER_JOINED".toList ++ ' ' :: uid) "ROOM_PEER_JOINED".toList =
      true := startsWith_command List.prefix_rfl
  have room : startsWith ("ROOM_PEER_JOINED".toList ++ ' ' :: uid) "ROOM_PEER".toList = true :=
    startsWith_command (by decide)
  unfold round
  rw [if_neg (by simp [startsWith]), if_neg (by simp [startsWith]), if_pos room, if_pos starts, fields]

theorem round_left (word : Word uid) :
    round sentOffers ("ROOM_PEER_LEFT ".toList ++ uid) = .continue sentOffers [] := by
  rw [spaced (show _ = "ROOM_PEER_LEFT".toList ++ [' '] by decide)]
  have fields : noticeFields ("ROOM_PEER_LEFT".toList ++ ' ' :: uid) = some uid :=
    noticeFields_notice (by decide) word
  have starts : startsWith ("ROOM_PEER_LEFT".toList ++ ' ' :: uid) "ROOM_PEER_LEFT".toList =
      true := startsWith_command List.prefix_rfl
  have room : startsWith ("ROOM_PEER_LEFT".toList ++ ' ' :: uid) "ROOM_PEER".toList = true :=
    startsWith_command (by decide)
  unfold round
  rw [if_neg (by simp [startsWith]), if_neg (by simp [startsWith]), if_pos room,
    if_neg (by simp [startsWith]), if_pos starts, fields]

end Rounds

end GstWebrtc.Multiparty.RoomClient
