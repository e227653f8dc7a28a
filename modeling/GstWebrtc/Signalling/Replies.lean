import GstWebrtc.Signalling.Tables

/-!
# What the server sends

A reply carries the values that the source formats into the text; `Reply.text`
is that text.  The `room` of `roomOk` is not part of the text: it only says
which request the list answers.  `repr` stands for Python's `repr` of a string.
-/

namespace GstWebrtc.Signalling

open GstWebrtc.Base GstWebrtc.Base.PyText

inductive Reply where
  | hello
  | sessionOk
  | roomOk (room : RoomId) (peers : List Uid)
  | peerJoined (uid : Uid)
  | peerLeft (uid : Uid)
  | peerMsg (uid : Uid) (msg : Text)
  | relay (msg : Text)
  | notFound (peer : Uid)
  | busy (peer : Uid)
  | notInRoom (peer : Uid)
  | invalidRoom (room : Text)
  | alreadyInRoom
  deriving DecidableEq

namespace Reply

def text (repr : Text → Text) : Reply → Text
  | hello => "HELLO".toList
  | sessionOk => "SESSION_OK".toList
  | roomOk _ peers => "ROOM_OK ".toList ++ joinSpace peers
  | peerJoined uid => "ROOM_PEER_JOINED ".toList ++ uid
  | peerLeft uid => "ROOM_PEER_LEFT ".toList ++ uid
  | peerMsg uid msg => "ROOM_PEER_MSG ".toList ++ uid ++ ' ' :: msg
  | relay msg => msg
  | notFound peer => "ERROR peer ".toList ++ repr peer ++ " not found".toList
  | busy peer => "ERROR peer ".toList ++ repr peer ++ " busy".toList
  | notInRoom peer => "ERROR peer ".toList ++ repr peer ++ " is not in the room".toList
  | invalidRoom room => "ERROR invalid room id ".toList ++ repr room
  | alreadyInRoom => "ERROR invalid msg, already in room".toList

section Texts

variable (repr : Text → Text) (room : RoomId) (peers : List Uid) (uid : Uid) (msg : Text)

@[simp] theorem text_hello : hello.text repr = "HELLO".toList := rfl
@[simp] theorem text_sessionOk : sessionOk.text repr = "SESSION_OK".toList := rfl
@[simp] theorem text_roomOk :
    (roomOk room peers).text repr = "ROOM_OK ".toList ++ joinSpace peers := rfl
@[simp] theorem text_peerJoined :
    (peerJoined uid).text repr = "ROOM_PEER_JOINED ".toList ++ uid := rfl
@[simp] theorem text_peerLeft : (peerLeft uid).text repr = "ROOM_PEER_LEFT ".toList ++ uid := rfl
@[simp] theorem text_peerMsg :
    (peerMsg uid msg).text repr = "ROOM_PEER_MSG ".toList ++ uid ++ ' ' :: msg := rfl
@[simp] theorem text_relay : (relay msg).text repr = msg := rfl

end Texts

/-- The replies whose text reports an error. -/
def IsError : Reply → Prop
  | notFound _ | busy _ | notInRoom _ | invalidRoom _ | alreadyInRoom => True
  | _ => False

instance (r : Reply) : Decidable r.IsError := by
  cases r <;> unfold IsError <;> infer_instance

theorem IsError.text_prefix {repr : Text → Text} {r : Reply} (h : r.IsError) :
    "ERROR".toList <+: r.text repr := by
  cases r with
  | notFound peer => exact ⟨_, rfl⟩
  | busy peer => exact ⟨_, rfl⟩
  | notInRoom peer => exact ⟨_, rfl⟩
  | invalidRoom room => exact ⟨_, rfl⟩
  | alreadyInRoom => exact ⟨" invalid msg, already in room".toList, rfl⟩
  | _ => exact h.elim

/-- Apart from relayed texts only the error replies begin with `ERROR`. -/
theorem isError_of_text_prefix {repr : Text → Text} {r : Reply}
    (notRelay : ∀ msg, r ≠ .relay msg) (h : "ERROR".toList <+: r.text repr) : r.IsError := by
  cases r with
  | hello => simp at h
  | sessionOk => simp at h
  | roomOk room peers => simp at h
  | peerJoined uid => simp at h
  | peerLeft uid => simp at h
  | peerMsg uid msg => simp at h
  | relay msg => exact (notRelay msg rfl).elim
  | _ => exact True.intro

/-- No error reply begins like the notices of a room. -/
theorem not_isError_of_text_prefix {repr : Text → Text} {r : Reply}
    (h : "ROOM_PEER_".toList <+: r.text repr) : ¬ r.IsError := by
  intro error
  have both := List.prefix_of_prefix_length_le error.text_prefix h (by decide)
  exact absurd both (by decide)

/-- The replies that can look like a notice of a room. -/
theorem peer_of_text_prefix {repr : Text → Text} {r : Reply}
    (h : "ROOM_PEER_".toList <+: r.text repr) :
    (∃ msg, r = .relay msg) ∨ (∃ uid, r = .peerJoined uid) ∨ (∃ uid, r = .peerLeft uid) ∨
      ∃ uid msg, r = .peerMsg uid msg := by
  have plain := not_isError_of_text_prefix h
  cases r with
  | relay msg => exact Or.inl ⟨msg, rfl⟩
  | peerJoined uid => exact Or.inr (Or.inl ⟨uid, rfl⟩)
  | peerLeft uid => exact Or.inr (Or.inr (Or.inl ⟨uid, rfl⟩))
  | peerMsg uid msg => exact Or.inr (Or.inr (Or.inr ⟨uid, msg, rfl⟩))
  | hello => simp at h
  | sessionOk => simp at h
  | roomOk room peers => simp at h
  | _ => exact absurd True.intro plain

theorem peerMsg_of_text_prefix {repr : Text → Text} {r : Reply}
    (h : "ROOM_PEER_MSG ".toList <+: r.text repr) :
    (∃ msg, r = .relay msg) ∨ ∃ uid msg, r = .peerMsg uid msg := by
  rcases peer_of_text_prefix ((show "ROOM_PEER_".toList <+: _ by decide).trans h) with
    relay | ⟨uid, rfl⟩ | ⟨uid, rfl⟩ | message
  · exact Or.inl relay
  · simp at h
  · simp at h
  · exact Or.inr message

theorem peerJoined_of_text {repr : Text → Text} {r : Reply} {x : Uid}
    (h : r.text repr = "ROOM_PEER_JOINED ".toList ++ x) :
    (∃ msg, r = .relay msg) ∨ r = .peerJoined x := by
  have starts : "ROOM_PEER_".toList <+: r.text repr := by
    rw [h]
    exact ⟨"JOINED ".toList ++ x, rfl⟩
  rcases peer_of_text_prefix starts with relay | ⟨uid, rfl⟩ | ⟨uid, rfl⟩ | ⟨uid, msg, rfl⟩
  · exact Or.inl relay
  · exact Or.inr (congrArg _ (List.append_cancel_left h))
  · simp at h
  · simp at h

theorem peerLeft_of_text {repr : Text → Text} {r : Reply} {x : Uid}
    (h : r.text repr = "ROOM_PEER_LEFT ".toList ++ x) :
    (∃ msg, r = .relay msg) ∨ r = .peerLeft x := by
  have starts : "ROOM_PEER_".toList <+: r.text repr := by
    rw [h]
    exact ⟨"LEFT ".toList ++ x, rfl⟩
  rcases peer_of_text_prefix starts with relay | ⟨uid, rfl⟩ | ⟨uid, rfl⟩ | ⟨uid, msg, rfl⟩
  · exact Or.inl relay
  · simp at h
  · exact Or.inr (congrArg _ (List.append_cancel_left h))
  · simp at h

end Reply

end GstWebrtc.Signalling
