import GstWebrtc.Multiparty.RustClient

/-!
# Adding a peer to the pipeline of the Rust client

`add_peer` step by step, with what it puts into the pipeline and onto the two
tees.  The calls that may fail are those followed by `?`; what was done before
the failing one is not undone.
-/

namespace GstWebrtc.Multiparty.RustClient

open GstWebrtc.Base GstWebrtc.Base.RustText

/-- The errors of the fallible calls of `add_peer`. -/
structure Steps where
  parseBin : Option Text
  linkAudio : Option Text
  linkVideo : Option Text

/-- A request pad of a tee. -/
structure RequestPad where
  peerId : UInt32
  linked : Bool

/-- The map of peers, the bins in the pipeline and the request pads of the tees, each with
the peer that it was made for. -/
structure AppInner where
  peers : AList fun _ : UInt32 => Peer
  bins : List UInt32
  audioTee : List RequestPad
  videoTee : List RequestPad

namespace AppInner

variable (steps : Steps) (app : AppInner)

/-- The peer is in the map, its bin in the pipeline, and the audio tee is linked to it if it can. -/
def insertPeer (peerId : UInt32) (offer : Bool) : AppInner :=
  { app with
    peers := app.peers.insert peerId ⟨peerId, offer⟩
    bins := peerId :: app.bins
    audioTee := ⟨peerId, steps.linkAudio.isNone⟩ :: app.audioTee }

def requestVideo (peerId : UInt32) : AppInner :=
  { app with videoTee := ⟨peerId, steps.linkVideo.isNone⟩ :: app.videoTee }

def addPeer (peer : Text) (offer : Bool) : AppInner × Except Failure Unit :=
  match parseU32 peer with
  | none => (app, .error (.bail "Can't parse peer id".toList))
  | some peerId =>
      if (app.peers.lookup peerId).isSome then
        (app, .error (.bail
          ("Peer ".toList ++ displayU32 peerId ++ " already called".toList)))
      else
        match steps.parseBin with
        | some message => (app, .error (.bail message))
        | none =>
            match steps.linkAudio with
            | some message => (app.insertPeer steps peerId offer, .error (.bail message))
            | none =>
                let app := (app.insertPeer steps peerId offer).requestVideo steps peerId
                match steps.linkVideo with
                | some message => (app, .error (.bail message))
                | none => (app, .ok ())

end AppInner

/-- What the signalling model is told of the fallible calls. -/
def Libraries.withSteps (lib : Libraries) (steps : Steps) : Libraries :=
  { lib with
    binError := steps.parseBin
    linkError := steps.linkAudio.or steps.linkVideo }

/-- An error leaves everything as it was, and otherwise the one new entry is there. -/
structure Atomic (app : AppInner) (peer : Text) (offer : Bool)
    (result : AppInner × Except Failure Unit) : Prop where
  failed : ∀ failure, result.2 = .error failure → result.1 = app
  added : result.2 = .ok () → ∃ peerId, parseU32 peer = some peerId ∧ peerId ∉ app.peers ∧
    result.1.peers = app.peers.insert peerId ⟨peerId, offer⟩

/-- The peer is turned down before anything is done. -/
def Refused (steps : Steps) (app : AppInner) (peer : Text) : Prop :=
  parseU32 peer = none ∨ (∃ peerId ∈ app.peers, parseU32 peer = some peerId) ∨
    steps.parseBin ≠ none

/-- Both tees can be linked, if it comes to that. -/
def Settled (steps : Steps) (app : AppInner) (peer : Text) : Prop :=
  Refused steps app peer ∨ (steps.linkAudio = none ∧ steps.linkVideo = none)

section AddPeer

variable {steps : Steps} {app : AppInner} {peer : Text} {offer : Bool} {peerId : UInt32}

/-- The map and the result are those of the signalling model. -/
theorem addPeer_peers (lib : Libraries) :
    ((app.addPeer steps peer offer).1.peers, (app.addPeer steps peer offer).2) =
      ((App.addPeer (lib.withSteps steps) ⟨app.peers⟩ peer offer).1.peers,
        (App.addPeer (lib.withSteps steps) ⟨app.peers⟩ peer offer).2) := by
  unfold AppInner.addPeer App.addPeer Libraries.withSteps
  cases parseU32 peer with
  | none => rfl
  | some peerId =>
      dsimp only
      split
      · rfl
      · cases steps.parseBin with
        | some message => rfl
        | none =>
            cases steps.linkAudio with
            | some message => rfl
            | none => cases steps.linkVideo <;> rfl

/-- The fallible calls on the pipeline, once the peer is new. -/
theorem addPeer_fresh (read : parseU32 peer = some peerId) (fresh : peerId ∉ app.peers)
    (built : steps.parseBin = none) :
    app.addPeer steps peer offer =
      match steps.linkAudio with
      | some message => (app.insertPeer steps peerId offer, .error (.bail message))
      | none =>
          ((app.insertPeer steps peerId offer).requestVideo steps peerId,
            match steps.linkVideo with
            | some message => .error (.bail message)
            | none => .ok ()) := by
  have missing : ¬ (app.peers.lookup peerId).isSome = true := by
    rw [AList.lookup_eq_none.mpr fresh]
    simp
  unfold AppInner.addPeer
  rw [read]
  dsimp only
  rw [if_neg missing, built]
  dsimp only
  cases steps.linkAudio with
  | some message => rfl
  | none => cases steps.linkVideo <;> rfl

/-- The entry is in the map as soon as a link is tried. -/
theorem addPeer_registers (read : parseU32 peer = some peerId) (fresh : peerId ∉ app.peers)
    (built : steps.parseBin = none) :
    (app.addPeer steps peer offer).1.peers = app.peers.insert peerId ⟨peerId, offer⟩ := by
  rw [addPeer_fresh read fresh built]
  cases steps.linkAudio <;> rfl

/-- A known or unreadable peer, and a bin that cannot be built, are refused at once. -/
theorem addPeer_refused (refused : Refused steps app peer) :
    ∃ failure, app.addPeer steps peer offer = (app, .error failure) := by
  unfold AppInner.addPeer
  cases read : parseU32 peer with
  | none => exact ⟨_, rfl⟩
  | some peerId =>
      dsimp only
      split
      · exact ⟨_, rfl⟩
      · next fresh =>
          rcases refused with unread | ⟨known, inside, same⟩ | unbuilt
          · cases read.symm.trans unread
          · cases read.symm.trans same
            exact absurd (AList.lookup_isSome.mpr inside) fresh
          · cases built : steps.parseBin with
            | none => exact absurd built unbuilt
            | some message => exact ⟨_, rfl⟩

/-- Any other peer is new and gets a bin. -/
theorem exists_fresh (accepted : ¬ Refused steps app peer) :
    ∃ peerId, parseU32 peer = some peerId ∧ peerId ∉ app.peers ∧ steps.parseBin = none := by
  obtain ⟨readable, rest⟩ := not_or.mp accepted
  obtain ⟨unknown, built⟩ := not_or.mp rest
  obtain ⟨peerId, read⟩ := Option.ne_none_iff_exists'.mp readable
  exact ⟨peerId, read, fun inside => unknown ⟨peerId, inside, read⟩, not_not.mp built⟩

/--
`add_peer` undoes nothing, so it is atomic exactly when no link fails after the
peer was put into the map and the pipeline.
-/
theorem add_peer_atomic_iff :
    Atomic app peer offer (app.addPeer steps peer offer) ↔ Settled steps app peer := by
  constructor
  · intro atomic
    by_contra unsettled
    obtain ⟨accepted, links⟩ := not_or.mp unsettled
    obtain ⟨peerId, read, fresh, built⟩ := exists_fresh accepted
    have fails : ∃ failure, (app.addPeer steps peer offer).2 = .error failure := by
      rw [addPeer_fresh read fresh built]
      cases audio : steps.linkAudio with
      | some message => exact ⟨_, rfl⟩
      | none =>
          cases video : steps.linkVideo with
          | some message => exact ⟨_, rfl⟩
          | none => exact absurd ⟨audio, video⟩ links
    obtain ⟨failure, failed⟩ := fails
    have same := congrArg AppInner.peers (atomic.failed failure failed)
    rw [addPeer_registers read fresh built] at same
    exact fresh (same ▸ AList.mem_insert app.peers |>.mpr (Or.inl rfl))
  · intro settled
    by_cases refused : Refused steps app peer
    · obtain ⟨failure, unchanged⟩ : ∃ failure,
          app.addPeer steps peer offer = (app, .error failure) := addPeer_refused refused
      rw [unchanged]
      exact ⟨fun _ _ => rfl, fun ok => by cases ok⟩
    · obtain ⟨audio, video⟩ := settled.resolve_left refused
      obtain ⟨peerId, read, fresh, built⟩ := exists_fresh refused
      refine ⟨fun failure failed => ?_, fun _ => ⟨peerId, read, fresh, ?_⟩⟩
      · rw [addPeer_fresh read fresh built, audio, video] at failed
        cases failed
      · exact addPeer_registers read fresh built

/-- After a failed link the peer is called already, as often as the server announces it. -/
theorem readd_refused (unsettled : ¬ Settled steps app peer) (later : Steps) (again : Bool) :
    ((app.addPeer steps peer offer).1.addPeer later peer again).2 ≠ .ok () := by
  obtain ⟨accepted, -⟩ := not_or.mp unsettled
  obtain ⟨peerId, read, fresh, built⟩ := exists_fresh accepted
  have known : peerId ∈ (app.addPeer steps peer offer).1.peers := by
    rw [addPeer_registers read fresh built]
    exact (AList.mem_insert app.peers).mpr (Or.inl rfl)
  have refused : Refused later (app.addPeer steps peer offer).1 peer :=
    Or.inr (Or.inl ⟨peerId, known, read⟩)
  obtain ⟨failure, unchanged⟩ : ∃ failure,
      (app.addPeer steps peer offer).1.addPeer later peer again =
        ((app.addPeer steps peer offer).1, .error failure) := addPeer_refused refused
  rw [unchanged]
  rintro ⟨⟩

end AddPeer

/-- The audio tee cannot be linked to the first peer. -/
theorem failed_link_registers :
    ¬ ∀ steps app peer offer, Atomic app peer offer (app.addPeer steps peer offer) := by
  intro atomic
  let steps : Steps := ⟨none, some "Pads could not be linked".toList, none⟩
  have same := (atomic steps ⟨∅, [], [], []⟩ "7".toList false).failed _ rfl
  cases congrArg AppInner.bins same

end GstWebrtc.Multiparty.RustClient
