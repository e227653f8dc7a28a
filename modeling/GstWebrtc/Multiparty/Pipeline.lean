import Mathlib.Data.Finset.Basic
import GstWebrtc.Base.GstBin
import GstWebrtc.Base.Machine
import GstWebrtc.Multiparty.Client

/-!
# The branches of the pipeline

The pipeline of `mp-webrtc-sendrecv.c` has a branch for each peer, which four
callbacks build and `remove_peer_from_pipeline` takes away.  An element is
recorded with the peer that it was created for, which no function reads.
-/

namespace GstWebrtc.Multiparty

open GstWebrtc.Base GstWebrtc.Base.CText

structure Element where
  factory : Text
  name : Text
  /-- The peer that the element was created for. -/
  peer : Option Text
  deriving DecidableEq

/-- A request pad of the tee, with the queue that it is linked to. -/
structure TeePad where
  queue : Text
  peer : Option Text
  deriving DecidableEq

structure Pipeline where
  bin : GstBin Element Element.name
  teePads : List TeePad

/-- A name that is neither chosen by `add_peer_to_pipeline` for a queue nor that of the tee. -/
def Plain (name : Text) : Prop := ¬ "queue-".toList <+: name ∧ name ≠ "audiotee".toList

/-- A name that GStreamer makes up, such as `queue7`. -/
abbrev AutoName := { name : Text // Plain name }

/-- The names of the elements that the children of the pipeline contain. -/
abbrev Inner := Element → List AutoName

def Inner.names (inner : Inner) (element : Element) : List Text := (inner element).map Subtype.val

def queueName (peerId : Text) : Text := "queue-".toList ++ peerId

namespace Pipeline

/-- `start_pipeline` -/
def initial : List Element :=
  [⟨"tee".toList, "audiotee".toList, none⟩, ⟨"queue".toList, "queue0".toList, none⟩,
    ⟨"fakesink".toList, "fakesink0".toList, none⟩,
    ⟨"audiotestsrc".toList, "audiotestsrc0".toList, none⟩,
    ⟨"queue".toList, "queue1".toList, none⟩, ⟨"opusenc".toList, "opusenc0".toList, none⟩,
    ⟨"rtpopuspay".toList, "rtpopuspay0".toList, none⟩,
    ⟨"queue".toList, "queue2".toList, none⟩,
    ⟨"capsfilter".toList, "capsfilter0".toList, none⟩]

def startPipeline : Pipeline :=
  ⟨⟨initial, by decide⟩, [⟨"queue0".toList, none⟩]⟩

/-- The tee is found in the pipeline. -/
def hasTee (bin : GstBin Element Element.name) (inner : Inner) : Bool :=
  match bin.getByName inner.names "audiotee".toList with
  | some (.child _) => true
  | _ => false

def addPeerToPipeline (inner : Inner) (pl : Pipeline) (peerId : Text) : Except Fault Pipeline :=
  let q : Element := ⟨"queue".toList, queueName peerId, some peerId⟩
  let webrtc : Element := ⟨"webrtcbin".toList, peerId, some peerId⟩
  -- elements that the bin refuses cannot be linked
  match (pl.bin.add q).bind fun bin => bin.add webrtc with
  | none => .error .assertion
  | some bin =>
      if hasTee bin inner then .ok ⟨bin, ⟨q.name, some peerId⟩ :: pl.teePads⟩
      else .error .assertion

/-- The queue of a peer is removed, and the pad of the tee that it was linked to is released. -/
def removeQueue (inner : Inner) (pl : Pipeline) (peerId : Text) : Except Fault Pipeline :=
  match pl.bin.getByName inner.names (queueName peerId) with
  | some (.child q) =>
      -- only a queue has a static pad `sink`; an element of that name may be a peer's webrtcbin
      if q.factory ≠ "queue".toList then .error .assertion
      else
        match pl.teePads.find? fun pad => pad.queue = q.name with
        | none => .error .assertion
        | some srcpad =>
            if hasTee (pl.bin.remove q) inner then
              .ok ⟨pl.bin.remove q, pl.teePads.erase srcpad⟩
            else .error .assertion
  | _ => .error .assertion

def removePeerFromPipeline (inner : Inner) (pl : Pipeline) (peerId : Text) :
    Except Fault Pipeline :=
  match pl.bin.getByName inner.names peerId with
  | none => .ok pl
  | some (.child webrtc) => removeQueue inner { pl with bin := pl.bin.remove webrtc } peerId
  -- `gst_bin_remove` refuses an element that is not its child
  | some (.inside _) => removeQueue inner pl peerId

/-- `on_incoming_stream` -/
def onIncomingStream (pl : Pipeline) (webrtc : Element) (decodebin : AutoName) : Pipeline :=
  { pl with bin := pl.bin.tryAdd ⟨"decodebin".toList, decodebin.val, webrtc.peer⟩ }

/-- The made-up names of the three elements of a branch for a decoded stream. -/
structure StreamNames where
  q : AutoName
  conv : AutoName
  sink : AutoName

def handleMediaStream (pl : Pipeline) (decodebin : Element) (convertName sinkName : Text)
    (names : StreamNames) : Except Fault Pipeline :=
  -- the pad is linked to the queue
  match pl.bin.add ⟨"queue".toList, names.q.val, decodebin.peer⟩ with
  | none => .error .assertion
  | some bin => .ok { pl with
      bin := (bin.tryAdd ⟨convertName, names.conv.val, decodebin.peer⟩).tryAdd
        ⟨sinkName, names.sink.val, decodebin.peer⟩ }

/-- `on_incoming_decodebin_stream`, with the name of the pad's caps if it has any. -/
def onIncomingDecodebinStream (pl : Pipeline) (decodebin : Element) (caps : Option Text)
    (names : StreamNames) : Except Fault Pipeline :=
  match caps with
  | none => .ok pl
  | some name =>
      if hasPrefix name "video".toList then
        pl.handleMediaStream decodebin "videoconvert".toList "autovideosink".toList names
      else if hasPrefix name "audio".toList then
        pl.handleMediaStream decodebin "audioconvert".toList "autoaudiosink".toList names
      else .ok pl

end Pipeline

/-! ## The system -/

/-- The pipeline, and the peers that were added and have not left. -/
structure Scene where
  pipeline : Pipeline
  present : Finset Text

inductive SceneAct where
  /-- `call_peer` or `incoming_call_from_peer`. -/
  | added (inner : Inner) (peerId : Text)
  /-- A pad of a webrtcbin appears, which is a source pad or not. -/
  | stream (webrtc : Element) (source : Bool) (decodebin : AutoName)
  | decoded (decodebin : Element) (caps : Option Text) (names : Pipeline.StreamNames)
  /-- `ROOM_PEER_LEFT` -/
  | left (inner : Inner) (peerId : Text)

namespace Scene

def step (s : Scene) : SceneAct → Option Scene
  | .added inner peerId =>
      match s.pipeline.addPeerToPipeline inner peerId with
      | .ok pipeline => some ⟨pipeline, insert peerId s.present⟩
      | .error _ => none
  | .stream webrtc source decodebin =>
      if webrtc ∈ s.pipeline.bin.children ∧ webrtc.factory = "webrtcbin".toList then
        some (if source then { s with pipeline := s.pipeline.onIncomingStream webrtc decodebin }
          else s)
      else none
  | .decoded decodebin caps names =>
      if decodebin ∈ s.pipeline.bin.children ∧ decodebin.factory = "decodebin".toList then
        match s.pipeline.onIncomingDecodebinStream decodebin caps names with
        | .ok pipeline => some { s with pipeline := pipeline }
        | .error _ => none
      else none
  | .left inner peerId =>
      match s.pipeline.removePeerFromPipeline inner peerId with
      | .ok pipeline => some ⟨pipeline, s.present.erase peerId⟩
      | .error _ => none

/-- The runs that no failed assertion ends. -/
def machine : Machine Scene SceneAct := ⟨⟨Pipeline.startPipeline, ∅⟩, step⟩

end Scene

/-! ## What belongs to a peer -/

namespace Element

def queueOf (peerId : Text) : Element := ⟨"queue".toList, queueName peerId, some peerId⟩

def webrtcOf (peerId : Text) : Element := ⟨"webrtcbin".toList, peerId, some peerId⟩

@[simp] theorem peer_queueOf (peerId : Text) : (queueOf peerId).peer = some peerId := rfl

@[simp] theorem peer_webrtcOf (peerId : Text) : (webrtcOf peerId).peer = some peerId := rfl

/-- How the elements of the pipeline come about. -/
inductive Shape : Element → Prop where
  | first {e} (inside : e ∈ Pipeline.initial) : Shape e
  | queue (peerId) : Shape (queueOf peerId)
  | webrtcbin (peerId) : Shape (webrtcOf peerId)
  | stream (factory) (name : AutoName) (peerId) : Shape ⟨factory, name.val, some peerId⟩

end Element

/-- The first elements, and the branches of the peers that are present. -/
structure Tidy (s : Scene) : Prop where
  initial : s.pipeline.bin.children.filter (fun e => e.peer = none) = Pipeline.initial
  initialPads : s.pipeline.teePads.filter (fun pad => pad.peer = none) =
    Pipeline.startPipeline.teePads
  elements : ∀ e ∈ s.pipeline.bin.children, ∀ p, e.peer = some p → p ∈ s.present
  pads : ∀ pad ∈ s.pipeline.teePads, ∀ p, pad.peer = some p → p ∈ s.present
  branches : ∀ p ∈ s.present, Element.queueOf p ∈ s.pipeline.bin.children ∧
    Element.webrtcOf p ∈ s.pipeline.bin.children ∧
    s.pipeline.teePads.filter (fun pad => pad.peer = some p) = [⟨queueName p, some p⟩]

/-- All that was created for `p` is gone, and the rest is as it was. -/
structure Removed (s : Scene) (p : Text) (s' : Scene) : Prop where
  elements : s'.pipeline.bin.children =
    s.pipeline.bin.children.filter fun e => e.peer ≠ some p
  pads : s'.pipeline.teePads = s.pipeline.teePads.filter fun pad => pad.peer ≠ some p

/-- A peer that leaves has no element but its queue and its webrtcbin, and the lookup of its
name does not end inside another element. -/
def Removable (s : Scene) : SceneAct → Prop
  | .left inner p =>
      (∀ e ∈ s.pipeline.bin.children, e.peer = some p → e.name = p ∨ e.name = queueName p) ∧
      ∀ child, s.pipeline.bin.getByName inner.names p ≠ some (.inside child)
  | _ => True

/-! ## Names -/

section Names

variable {e : Element} {p p' : Text}

theorem queueName_inj (same : queueName p = queueName p') : p = p' := List.append_cancel_left same

theorem ne_queueName : p ≠ queueName p := by
  intro same
  have lengths : p.length = "queue-".toList.length + p.length :=
    (congrArg List.length same).trans List.length_append
  have some : 0 < "queue-".toList.length := by decide
  omega

theorem initial_name (inside : e ∈ Pipeline.initial) : ¬ "queue-".toList <+: e.name := by
  have all : ∀ e ∈ Pipeline.initial, ¬ "queue-".toList <+: e.name := by decide
  exact all e inside

theorem initial_factory (inside : e ∈ Pipeline.initial) :
    e.factory ≠ "webrtcbin".toList ∧ e.factory ≠ "decodebin".toList := by
  have all : ∀ e ∈ Pipeline.initial,
      e.factory ≠ "webrtcbin".toList ∧ e.factory ≠ "decodebin".toList := by decide
  exact all e inside

namespace Element.Shape

/-- The queue of the name that belongs to `p` is the queue of `p`. -/
theorem eq_queueOf (shape : e.Shape) (named : e.name = queueName p)
    (factory : e.factory = "queue".toList) : e = queueOf p := by
  have starts : "queue-".toList <+: e.name := ⟨p, named.symm⟩
  cases shape with
  | first inside => exact absurd starts (initial_name inside)
  | queue p' =>
      have same : queueName p' = queueName p := named
      rw [queueName_inj same]
  | webrtcbin p' =>
      have same : "webrtcbin".toList = "queue".toList := factory
      exact absurd same (by decide)
  | stream factory name p' => exact absurd starts name.property.1

/-- An element that is no first one was created for a peer. -/
theorem peer_of_factory (shape : e.Shape)
    (factory : e.factory = "webrtcbin".toList ∨ e.factory = "decodebin".toList) :
    ∃ p, e.peer = some p := by
  cases shape with
  | first inside =>
      obtain ⟨notWebrtc, notDecodebin⟩ := initial_factory inside
      exact absurd factory (not_or.mpr ⟨notWebrtc, notDecodebin⟩)
  | queue p => exact ⟨p, rfl⟩
  | webrtcbin p => exact ⟨p, rfl⟩
  | stream factory name p => exact ⟨p, rfl⟩

end Element.Shape

end Names

/-! ## What the functions do -/

section Functions

variable {inner : Inner} {pl pl' : Pipeline} {p : Text}

theorem addPeer_ok (ok : pl.addPeerToPipeline inner p = .ok pl') :
    pl'.bin.children = Element.webrtcOf p :: Element.queueOf p :: pl.bin.children ∧
    pl'.teePads = ⟨queueName p, some p⟩ :: pl.teePads ∧
    Element.webrtcOf p ∉ pl.bin.children := by
  simp only [Pipeline.addPeerToPipeline] at ok
  split at ok
  · cases ok
  · next bin added =>
      obtain ⟨first, addedQueue, addedWebrtc⟩ := Option.bind_eq_some_iff.mp added
      split at ok
      · cases ok
        obtain ⟨queue, -⟩ := GstBin.children_add addedQueue
        obtain ⟨webrtc, free⟩ := GstBin.children_add addedWebrtc
        refine ⟨webrtc.trans (congrArg _ queue), rfl, fun inside => ?_⟩
        exact free _ (queue ▸ List.mem_cons_of_mem _ inside) rfl
      · cases ok

/-- What `removeQueue` does when it returns. -/
inductive QueueRemoved (pl : Pipeline) (p : Text) : Pipeline → Prop where
  | intro {q srcpad} (queue : q ∈ pl.bin.children) (named : q.name = queueName p)
      (factory : q.factory = "queue".toList) (pad : srcpad ∈ pl.teePads)
      (linked : srcpad.queue = queueName p) :
      QueueRemoved pl p ⟨pl.bin.remove q, pl.teePads.erase srcpad⟩

theorem removeQueue_ok (ok : pl.removeQueue inner p = .ok pl') : QueueRemoved pl p pl' := by
  unfold Pipeline.removeQueue at ok
  split at ok
  · next q found =>
      split at ok
      · cases ok
      · next factory =>
          split at ok
          · cases ok
          · next srcpad linked =>
              split at ok
              · cases ok
                obtain ⟨queue, named⟩ := GstBin.mem_of_getByName found
                have link : srcpad.queue = q.name := by simpa using List.find?_some linked
                exact .intro queue named (not_not.mp factory) (List.mem_of_find?_eq_some linked)
                  (link.trans named)
              · cases ok
  · cases ok

/-- The three ways in which `remove_peer_from_pipeline` returns. -/
inductive PeerRemoved (inner : Inner) (pl : Pipeline) (p : Text) : Pipeline → Prop where
  | absent (missing : pl.bin.getByName inner.names p = none) : PeerRemoved inner pl p pl
  | child {webrtc pl'} (found : pl.bin.getByName inner.names p = some (.child webrtc))
      (rest : QueueRemoved { pl with bin := pl.bin.remove webrtc } p pl') :
      PeerRemoved inner pl p pl'
  | inside {other pl'} (found : pl.bin.getByName inner.names p = some (.inside other))
      (rest : QueueRemoved pl p pl') : PeerRemoved inner pl p pl'

theorem removePeer_ok (ok : pl.removePeerFromPipeline inner p = .ok pl') :
    PeerRemoved inner pl p pl' := by
  unfold Pipeline.removePeerFromPipeline at ok
  split at ok
  · next missing =>
      cases ok
      exact .absent missing
  · next found => exact .child found (removeQueue_ok ok)
  · next found => exact .inside found (removeQueue_ok ok)

end Functions

/-! ## The invariant -/

structure SceneInv (s : Scene) : Prop where
  tidy : Tidy s
  shapes : ∀ e ∈ s.pipeline.bin.children, e.Shape

/-- When one element meets a condition, to erase it is to keep the others. -/
theorem erase_eq_filter {α : Type} [DecidableEq α] {P : α → Bool} {x : α} {l : List α}
    (only : l.filter P = [x]) : l.erase x = l.filter fun y => !P y := by
  induction l with
  | nil => cases only
  | cons first rest ih =>
      have meets : P x = true := by
        have inside : x ∈ (first :: rest).filter P := by
          rw [only]
          exact List.mem_singleton_self x
        exact (List.mem_filter.mp inside).2
      rw [List.filter_cons] at only
      cases here : P first with
      | true =>
          rw [here, if_pos rfl] at only
          obtain ⟨rfl, none⟩ := List.cons.inj only
          have all : ∀ y ∈ rest, (!P y) = true := fun y inside => by
            rw [Bool.not_eq_true']
            exact Bool.eq_false_iff.mpr (List.filter_eq_nil_iff.mp none y inside)
          rw [List.erase_cons_head, List.filter_cons, here, List.filter_eq_self.mpr all]
          rfl
      | false =>
          rw [here, if_neg (by decide)] at only
          have other : first ≠ x := by
            rintro rfl
            cases here.symm.trans meets
          rw [List.erase_cons_tail (by simpa using other), ih only, List.filter_cons, here]
          rfl

namespace SceneInv

variable {s s' : Scene} {inner : Inner} {p : Text} {pl' : Pipeline}

theorem init : SceneInv Scene.machine.init := by
  have own : ∀ e ∈ Pipeline.initial, e.peer = none := by decide
  refine ⟨⟨?_, ?_, ?_, ?_, ?_⟩, fun e inside => .first inside⟩
  · exact List.filter_eq_self.mpr fun e inside => decide_eq_true (own e inside)
  · rfl
  · intro e inside p of
    cases (own e inside).symm.trans of
  · intro pad inside p of
    cases List.mem_singleton.mp inside
    cases of
  · intro p inside
    exact absurd inside (Finset.notMem_empty p)

/-- A peer that is not there can be added, and gets its branch. -/
theorem added (inv : SceneInv s) (ok : s.pipeline.addPeerToPipeline inner p = .ok pl') :
    SceneInv ⟨pl', insert p s.present⟩ := by
  obtain ⟨children, pads, free⟩ := addPeer_ok ok
  have absent : p ∉ s.present := fun inside => free (inv.tidy.branches p inside).2.1
  have noPads : s.pipeline.teePads.filter (fun pad => pad.peer = some p) = [] := by
    refine List.filter_eq_nil_iff.mpr fun pad inside of => absent ?_
    exact inv.tidy.pads pad inside p (of_decide_eq_true of)
  refine ⟨⟨?_, ?_, ?_, ?_, ?_⟩, ?_⟩
  · rw [children, ← inv.tidy.initial]
    simp
  · rw [pads, List.filter_cons_of_neg (by simp)]
    exact inv.tidy.initialPads
  · intro e inside p' of
    rw [children, List.mem_cons, List.mem_cons] at inside
    rcases inside with rfl | rfl | inside
    · cases of
      exact Finset.mem_insert_self _ _
    · cases of
      exact Finset.mem_insert_self _ _
    · exact Finset.mem_insert_of_mem (inv.tidy.elements e inside p' of)
  · intro pad inside p' of
    rw [pads, List.mem_cons] at inside
    rcases inside with rfl | inside
    · cases of
      exact Finset.mem_insert_self _ _
    · exact Finset.mem_insert_of_mem (inv.tidy.pads pad inside p' of)
  · intro p' inside
    rw [children, pads]
    rcases Finset.mem_insert.mp inside with rfl | inside
    · refine ⟨List.mem_cons_of_mem _ List.mem_cons_self, List.mem_cons_self, ?_⟩
      rw [List.filter_cons_of_pos (by simp), noPads]
    · obtain ⟨queue, webrtc, pad⟩ := inv.tidy.branches p' inside
      have other : some p ≠ some p' := by
        intro same
        cases same
        exact absent inside
      refine ⟨List.mem_cons_of_mem _ (List.mem_cons_of_mem _ queue),
        List.mem_cons_of_mem _ (List.mem_cons_of_mem _ webrtc), ?_⟩
      rw [List.filter_cons_of_neg (by simpa using other), pad]
  · intro e inside
    rw [children, List.mem_cons, List.mem_cons] at inside
    rcases inside with rfl | rfl | inside
    · exact .webrtcbin p
    · exact .queue p
    · exact inv.shapes e inside

/-- Elements for the streams of a peer that is there do no harm. -/
theorem grown (inv : SceneInv s) {bin : GstBin Element Element.name}
    (kept : s.pipeline.bin.children ⊆ bin.children)
    (first : bin.children.filter (fun e => e.peer = none) =
      s.pipeline.bin.children.filter fun e => e.peer = none)
    (fresh : ∀ e ∈ bin.children, e ∈ s.pipeline.bin.children ∨
      ∃ factory, ∃ name : AutoName, ∃ p ∈ s.present, e = ⟨factory, name.val, some p⟩) :
    SceneInv { s with pipeline := { s.pipeline with bin := bin } } := by
  refine ⟨⟨first.trans inv.tidy.initial, inv.tidy.initialPads, ?_, inv.tidy.pads, ?_⟩, ?_⟩
  · intro e inside p of
    rcases fresh e inside with old | ⟨factory, name, p', there, rfl⟩
    · exact inv.tidy.elements e old p of
    · cases of
      exact there
  · intro p there
    obtain ⟨queue, webrtc, pad⟩ := inv.tidy.branches p there
    exact ⟨kept queue, kept webrtc, pad⟩
  · intro e inside
    rcases fresh e inside with old | ⟨factory, name, p, -, rfl⟩
    · exact inv.shapes e old
    · exact .stream factory name p

/-- An element of one of the two kinds that report streams was created for a present peer. -/
theorem owner (inv : SceneInv s) {e : Element} (inside : e ∈ s.pipeline.bin.children)
    (factory : e.factory = "webrtcbin".toList ∨ e.factory = "decodebin".toList) :
    ∃ p ∈ s.present, e.peer = some p := by
  obtain ⟨p, of⟩ := (inv.shapes e inside).peer_of_factory factory
  exact ⟨p, inv.tidy.elements e inside p of, of⟩

/-- The first elements are not added to. -/
theorem first_tryAdd (bin : GstBin Element Element.name) {e : Element} (of : e.peer = some p) :
    (bin.tryAdd e).children.filter (fun e => e.peer = none) =
      bin.children.filter fun e => e.peer = none := by
  refine GstBin.filter_tryAdd ?_
  rw [of]
  rfl

theorem stream (inv : SceneInv s) {webrtc : Element} (inside : webrtc ∈ s.pipeline.bin.children)
    (factory : webrtc.factory = "webrtcbin".toList) (decodebin : AutoName) :
    SceneInv { s with pipeline := s.pipeline.onIncomingStream webrtc decodebin } := by
  obtain ⟨p, there, of⟩ := inv.owner inside (Or.inl factory)
  refine inv.grown GstBin.subset_tryAdd (first_tryAdd _ of) fun e added => ?_
  rcases GstBin.mem_tryAdd added with rfl | old
  · exact Or.inr ⟨_, decodebin, p, there, by rw [of]⟩
  · exact Or.inl old

theorem media (inv : SceneInv s) {decodebin : Element}
    (inside : decodebin ∈ s.pipeline.bin.children)
    (factory : decodebin.factory = "decodebin".toList) {convertName sinkName : Text}
    {names : Pipeline.StreamNames}
    (ok : s.pipeline.handleMediaStream decodebin convertName sinkName names = .ok pl') :
    SceneInv { s with pipeline := pl' } := by
  obtain ⟨p, there, of⟩ := inv.owner inside (Or.inr factory)
  unfold Pipeline.handleMediaStream at ok
  split at ok
  · cases ok
  · next bin added =>
      cases ok
      obtain ⟨children, -⟩ := GstBin.children_add added
      refine inv.grown ?_ ?_ fun e member => ?_
      · have kept : s.pipeline.bin.children ⊆ bin.children := by
          rw [children]
          exact List.subset_cons_self _ _
        exact List.Subset.trans (List.Subset.trans kept GstBin.subset_tryAdd) GstBin.subset_tryAdd
      · have owned : ∀ factory name, (⟨factory, name, decodebin.peer⟩ : Element).peer = some p :=
          fun _ _ => of
        refine (first_tryAdd _ (owned _ _)).trans ((first_tryAdd _ (owned _ _)).trans ?_)
        rw [children, List.filter_cons_of_neg (by simp [of])]
      · rcases GstBin.mem_tryAdd member with rfl | member
        · exact Or.inr ⟨_, names.sink, p, there, by rw [of]⟩
        · rcases GstBin.mem_tryAdd member with rfl | member
          · exact Or.inr ⟨_, names.conv, p, there, by rw [of]⟩
          · rw [children, List.mem_cons] at member
            rcases member with rfl | old
            · exact Or.inr ⟨_, names.q, p, there, by rw [of]⟩
            · exact Or.inl old

theorem decoded (inv : SceneInv s) {decodebin : Element}
    (inside : decodebin ∈ s.pipeline.bin.children)
    (factory : decodebin.factory = "decodebin".toList) {caps : Option Text}
    {names : Pipeline.StreamNames}
    (ok : s.pipeline.onIncomingDecodebinStream decodebin caps names = .ok pl') :
    SceneInv { s with pipeline := pl' } := by
  unfold Pipeline.onIncomingDecodebinStream at ok
  split at ok
  · cases ok
    exact inv
  · split at ok
    · exact inv.media inside factory ok
    · split at ok
      · exact inv.media inside factory ok
      · cases ok
        exact inv

/-- What `removeQueue` finds is the queue of `p` with its pad, and `p` is there. -/
theorem queue (inv : SceneInv s) {bin : GstBin Element Element.name}
    (children : bin.children ⊆ s.pipeline.bin.children)
    (removed : QueueRemoved { s.pipeline with bin := bin } p pl') :
    p ∈ s.present ∧ pl'.bin.children = (bin.children.filter fun e => e.name ≠ queueName p) ∧
      pl'.teePads = s.pipeline.teePads.filter fun pad => pad.peer ≠ some p := by
  obtain ⟨queue, named, factory, pad, linked⟩ := removed
  next q srcpad =>
    have own := (inv.shapes q (children queue)).eq_queueOf named factory
    have there : p ∈ s.present :=
      inv.tidy.elements q (children queue) p (by rw [own, Element.peer_queueOf])
    obtain ⟨-, -, pads⟩ := inv.tidy.branches p there
    have owner : srcpad.peer = some p := by
      cases of : srcpad.peer with
      | none =>
          have first : srcpad ∈ s.pipeline.teePads.filter fun pad => pad.peer = none :=
            List.mem_filter.mpr ⟨pad, decide_eq_true of⟩
          rw [inv.tidy.initialPads] at first
          cases List.mem_singleton.mp first
          have begins : "queue-".toList <+: "queue0".toList := ⟨p, linked.symm⟩
          exact absurd begins (by decide)
      | some p' =>
          obtain ⟨-, -, pads'⟩ := inv.tidy.branches p' (inv.tidy.pads srcpad pad p' of)
          have own' : srcpad ∈ s.pipeline.teePads.filter fun pad => pad.peer = some p' :=
            List.mem_filter.mpr ⟨pad, decide_eq_true of⟩
          rw [pads'] at own'
          cases List.mem_singleton.mp own'
          exact congrArg some (queueName_inj linked)
    have only : s.pipeline.teePads.filter (fun pad => pad.peer = some p) = [srcpad] := by
      have own' : srcpad ∈ s.pipeline.teePads.filter fun pad => pad.peer = some p :=
        List.mem_filter.mpr ⟨pad, decide_eq_true owner⟩
      rw [pads] at own' ⊢
      rw [List.mem_singleton.mp own']
    refine ⟨there, ?_, ?_⟩
    · rw [GstBin.children_remove, named]
    · rw [erase_eq_filter only]
      simp

/-- A peer that has no branch has nothing in the pipeline. -/
theorem nothing_of_absent (inv : SceneInv s) (absent : p ∉ s.present) :
    (∀ e ∈ s.pipeline.bin.children, e.peer ≠ some p) ∧
      ∀ pad ∈ s.pipeline.teePads, pad.peer ≠ some p :=
  ⟨fun e inside of => absent (inv.tidy.elements e inside p of),
    fun pad inside of => absent (inv.tidy.pads pad inside p of)⟩

/-- `ROOM_PEER_LEFT` takes away just what belongs to the peer when it can, and only then. -/
theorem left_iff (inv : SceneInv s)
    (ok : s.pipeline.removePeerFromPipeline inner p = .ok pl') :
    Removed s p ⟨pl', s.present.erase p⟩ ↔ Removable s (.left inner p) := by
  cases removePeer_ok ok with
  | absent missing =>
      have absent : p ∉ s.present := fun there =>
        GstBin.ne_of_getByName missing _ (inv.tidy.branches p there).2.1 rfl
      obtain ⟨noElement, noPad⟩ := inv.nothing_of_absent absent
      refine iff_of_true ⟨?_, ?_⟩ ⟨fun e inside of => absurd of (noElement e inside), ?_⟩
      · exact (List.filter_eq_self.mpr fun e inside => decide_eq_true (noElement e inside)).symm
      · exact (List.filter_eq_self.mpr fun pad inside => decide_eq_true (noPad pad inside)).symm
      · rw [missing]
        rintro child ⟨⟩
  | @child webrtc _ found rest =>
      obtain ⟨inside, named⟩ := GstBin.mem_of_getByName found
      have smaller : (s.pipeline.bin.remove webrtc).children ⊆ s.pipeline.bin.children :=
        fun e member => (GstBin.mem_remove.mp member).1
      obtain ⟨there, children, pads⟩ := inv.queue smaller rest
      have left : pl'.bin.children =
          s.pipeline.bin.children.filter fun e => e.name ≠ queueName p ∧ e.name ≠ p := by
        rw [children, GstBin.children_remove, named, List.filter_filter]
        simp
      constructor
      · intro removed
        refine ⟨fun e member of => ?_, fun child hidden => ?_⟩
        · by_contra other
          have stays : e ∈ pl'.bin.children := by
            rw [left]
            exact List.mem_filter.mpr
              ⟨member, decide_eq_true ⟨fun same => other (Or.inr same),
                fun same => other (Or.inl same)⟩⟩
          rw [removed.elements] at stays
          exact of_decide_eq_true (List.mem_filter.mp stays).2 of
        · cases found.symm.trans hidden
      · rintro ⟨own, -⟩
        refine ⟨left.trans (List.filter_congr fun e member => ?_), pads⟩
        have webrtcbin := (inv.tidy.branches p there).2.1
        have queue := (inv.tidy.branches p there).1
        have named_iff : (e.name = queueName p ∨ e.name = p) ↔ e.peer = some p := by
          constructor
          · rintro (same | same)
            · rw [GstBin.eq_of_name member queue same, Element.peer_queueOf]
            · rw [GstBin.eq_of_name member webrtcbin same, Element.peer_webrtcOf]
          · exact fun of => (own e member of).symm
        simp only [ne_eq, ← named_iff, not_or]
  | @inside other _ found rest =>
      obtain ⟨there, children, -⟩ := inv.queue (List.Subset.refl _) rest
      refine iff_of_false (fun removed => ?_) fun removable => removable.2 other found
      have stays : Element.webrtcOf p ∈ pl'.bin.children := by
        rw [children]
        exact List.mem_filter.mpr
          ⟨(inv.tidy.branches p there).2.1, decide_eq_true ne_queueName⟩
      rw [removed.elements] at stays
      exact of_decide_eq_true (List.mem_filter.mp stays).2 rfl

/-- What is removed was one branch, so the others are still there. -/
theorem left (inv : SceneInv s) (removed : Removed s p s')
    (present : s'.present = s.present.erase p) : SceneInv s' := by
  have element : ∀ e, e ∈ s'.pipeline.bin.children ↔
      e ∈ s.pipeline.bin.children ∧ e.peer ≠ some p := by
    intro e
    rw [removed.elements, List.mem_filter, decide_eq_true_iff]
  have pad : ∀ pad, pad ∈ s'.pipeline.teePads ↔
      pad ∈ s.pipeline.teePads ∧ pad.peer ≠ some p := by
    intro pad
    rw [removed.pads, List.mem_filter, decide_eq_true_iff]
  refine ⟨⟨?_, ?_, ?_, ?_, ?_⟩, fun e inside => inv.shapes e ((element e).mp inside).1⟩
  · rw [removed.elements, List.filter_filter, ← inv.tidy.initial]
    refine List.filter_congr fun e _ => ?_
    cases e.peer <;> simp
  · rw [removed.pads, List.filter_filter, ← inv.tidy.initialPads]
    refine List.filter_congr fun pad _ => ?_
    cases pad.peer <;> simp
  · intro e inside p' of
    obtain ⟨was, other⟩ := (element e).mp inside
    rw [present, Finset.mem_erase]
    refine ⟨?_, inv.tidy.elements e was p' of⟩
    rintro rfl
    exact other of
  · intro t inside p' of
    obtain ⟨was, other⟩ := (pad t).mp inside
    rw [present, Finset.mem_erase]
    refine ⟨?_, inv.tidy.pads t was p' of⟩
    rintro rfl
    exact other of
  · intro p' inside
    rw [present, Finset.mem_erase] at inside
    obtain ⟨queue, webrtc, pads⟩ := inv.tidy.branches p' inside.2
    have other : some p' ≠ some p := fun same => inside.1 (Option.some.inj same)
    refine ⟨(element _).mpr ⟨queue, other⟩, (element _).mpr ⟨webrtc, other⟩, ?_⟩
    rw [removed.pads, List.filter_filter, ← pads]
    refine List.filter_congr fun pad _ => ?_
    by_cases own : pad.peer = some p'
    · simp [own, inside.1]
    · simp [own]

theorem step (inv : SceneInv s) {act : SceneAct} (allowed : Removable s act)
    (h : s.step act = some s') : SceneInv s' := by
  cases act with
  | added inner peerId =>
      simp only [Scene.step] at h
      split at h
      · next ok =>
          cases h
          exact inv.added ok
      · cases h
  | stream webrtc source decodebin =>
      simp only [Scene.step] at h
      split at h
      · next known =>
          cases h
          cases source with
          | false => exact inv
          | true => exact inv.stream known.1 known.2 decodebin
      · cases h
  | decoded decodebin caps names =>
      simp only [Scene.step] at h
      split at h
      · next known =>
          split at h
          · next ok =>
              cases h
              exact inv.decoded known.1 known.2 ok
          · cases h
      · cases h
  | left inner peerId =>
      simp only [Scene.step] at h
      split at h
      · next ok =>
          cases h
          exact inv.left ((inv.left_iff ok).mpr allowed) rfl
      · cases h

theorem of_reachable (run : Scene.machine.Reachable Removable s) : SceneInv s :=
  run.invariant init fun _ _ _ inv allowed h => inv.step allowed h

end SceneInv

/--
In the runs in which no peer leaves that has more than its queue and its
webrtcbin, the pipeline consists of the first elements and the branches of the
peers that are there; and `ROOM_PEER_LEFT` takes the branch of a peer away, and
nothing else, exactly when the peer is one of these.
-/
theorem branches_removed {s : Scene} (run : Scene.machine.Reachable Removable s) :
    Tidy s ∧ ∀ inner p s', s.step (.left inner p) = some s' →
      (Removed s p s' ↔ Removable s (.left inner p)) := by
  have inv := SceneInv.of_reachable run
  refine ⟨inv.tidy, fun inner p s' h => ?_⟩
  simp only [Scene.step] at h
  split at h
  · next ok =>
      cases h
      exact inv.left_iff ok
  · cases h

/-- Of two peers that were called, one leaves, and the other one goes on sending its stream. -/
theorem branches_removed_called :
    ∃ s s', s.step (.left (fun _ => []) "p".toList) = some s' ∧ Tidy s ∧
      Removed s "p".toList s' ∧ s'.present = {"q".toList} ∧
      Element.queueOf "q".toList ∈ s'.pipeline.bin.children ∧
      Element.webrtcOf "q".toList ∈ s'.pipeline.bin.children := by
  let nothing : Inner := fun _ => []
  let calls : List SceneAct := [.added nothing "p".toList, .added nothing "q".toList,
    .stream (Element.webrtcOf "q".toList) true ⟨"decodebin0".toList, by decide, by decide⟩]
  let test : Scene → Bool := fun s =>
    ((s.step (.left nothing "p".toList)).any fun s' => s'.present = {"q".toList} ∧
      Element.queueOf "q".toList ∈ s'.pipeline.bin.children ∧
      Element.webrtcOf "q".toList ∈ s'.pipeline.bin.children) &&
      (s.pipeline.bin.children.all fun e => e.peer ≠ some "p".toList ||
        e.name = "p".toList || e.name = queueName "p".toList) &&
      !(s.pipeline.bin.getByName nothing.names "p".toList).any Found.isInside
  obtain ⟨s, done, tested⟩ : ∃ s,
      Scene.machine.exec Scene.machine.init calls = some s ∧
        test s = true := (Option.any_eq_true _ _).mp (by decide)
  have run : Scene.machine.Reachable Removable s :=
    Machine.run_of_exec calls (by simp [calls, Removable]) done
  obtain ⟨tidy, exact'⟩ := branches_removed run
  simp only [test, Bool.and_eq_true] at tested
  obtain ⟨⟨left, plain⟩, direct⟩ := tested
  obtain ⟨s', fires, stays⟩ := (Option.any_eq_true _ _).mp left
  obtain ⟨present, queue, webrtc⟩ := of_decide_eq_true stays
  have removable : Removable s (.left nothing "p".toList) := by
    refine ⟨fun e inside of => ?_, fun child found => ?_⟩
    · have own := List.all_eq_true.mp plain e inside
      simpa [of] using own
    · rw [found] at direct
      cases direct
  exact ⟨s, s', fires, tidy, (exact' nothing _ s' fires).mpr removable, present, queue, webrtc⟩

/-- The decodebin of a peer that sent a stream stays when the peer leaves. -/
theorem decodebin_stays :
    ¬ ∀ s, Scene.machine.Reachable Machine.anyAction s → Tidy s := by
  intro tidy
  let nothing : Inner := fun _ => []
  obtain ⟨s, run, test⟩ := Scene.machine.exists_reachable_of_exec
    [.added nothing "p".toList,
      .stream (Element.webrtcOf "p".toList) true ⟨"decodebin0".toList, by decide, by decide⟩,
      .left nothing "p".toList]
    (fun s => s.present = ∅ &&
      s.pipeline.bin.children.any fun e => e.peer = some "p".toList) (by decide)
  simp only [Bool.and_eq_true, decide_eq_true_eq, List.any_eq_true] at test
  obtain ⟨nobody, e, inside, of⟩ := test
  have there := (tidy s run).elements e inside _ of
  rw [nobody] at there
  exact absurd there (Finset.notMem_empty _)

end GstWebrtc.Multiparty
