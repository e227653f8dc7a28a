import GstWebrtc.Sendonly.Viewers
import Mathlib.Algebra.GroupWithZero.Nat

/-!
# Every viewer is served

Viewers come and go.  Each has its own pipeline, offer and answer, and what the
others do changes nothing for it.
-/

namespace GstWebrtc.Sendonly

open GstWebrtc.Base GstWebrtc.Browser

/-! ## What the texts mean -/

def Signal.description : Signal → Option Description
  | setRemoteDescription sdp => some (.answer sdp)
  | addIceCandidate _ _ => none

/-- The server acts on the text. -/
def ServerReads (parsable : Text → Bool) (msg : Json) (d : Option Description) : Prop :=
  ∃ signal, soupWebsocketMessageCb (fun _ => some msg) parsable jsonFrame = .ok (some signal) ∧
    signal.description = d

theorem serverReads_answer {parsable : Text → Bool} {sdp : Text} (valid : parsable sdp = true) :
    ServerReads parsable (sdpMessage (descriptionJson (.answer sdp))) (some (.answer sdp)) := by
  have asks : Asks (fun _ => some (sdpMessage (descriptionJson (.answer sdp)))) parsable jsonFrame
      (.setRemoteDescription sdp) := .sdp rfl rfl rfl rfl rfl valid
  exact ⟨_, asks.callback trivial, rfl⟩

theorem serverReads_candidate (parsable : Text → Bool) (ice : IceCandidate) :
    ServerReads parsable (iceMessage ice.json) none := by
  obtain ⟨candidate, sdpMid, index⟩ := ice
  cases index with
  | none => exact ⟨.addIceCandidate 0 candidate, rfl, rfl⟩
  | some index => exact ⟨.addIceCandidate ((index : Int) % 0x100000000).toNat candidate, rfl, rfl⟩

/-- What the page makes of the text. -/
def ViewerReads (msg : Json) : Option Description → Prop
  | some d => ViewerPage.isSdp msg = true ∧
      (Page.property msg "data".toList).bind ofDescriptionJson = some d
  | none => ViewerPage.isSdp msg = false

theorem viewerReads_offer (sdp : Text) :
    ViewerReads (sdpMessage (descriptionJson (.offer sdp))) (some (.offer sdp)) := ⟨rfl, rfl⟩

/-! ## One viewer -/

/-- The answer has not been asked for. -/
def Silent : Answerer → Prop
  | .hearing _ | .heard _ => True
  | _ => False

/-- The answer has been asked for, and can be parsed if it is there. -/
def Answering (parsable : Text → Bool) : Answerer → Prop
  | .idle | .hearing _ | .heard _ => False
  | .hasty _ | .creating _ => True
  | .setting _ a | .settled _ a => parsable a = true

/-- What has become of the local stream: it is to be asked for, it is pending, or the promise is
settled. -/
inductive Filming (camera : Bool) (parsable : Text → Bool) :
    Answerer → Nat → Option Bool → Prop where
  | idle : Filming camera parsable .idle 0 (if camera then none else some true)
  | asked {as} (films : camera = true) (silent : Silent as) : Filming camera parsable as 1 none
  | refused {as} (films : camera = true) (silent : Silent as) :
      Filming camera parsable as 0 (some false)
  | answers {as} (answering : Answering parsable as) : Filming camera parsable as 0 (some true)

theorem Filming.answering {camera : Bool} {parsable : Text → Bool} {as next : Answerer}
    {pending : Nat} {media : Option Bool} (filming : Filming camera parsable as pending media)
    (loud : ¬ Silent as) (asked : as ≠ .idle)
    (keeps : Answering parsable as → Answering parsable next) :
    Filming camera parsable next pending media := by
  cases filming with
  | idle => exact absurd rfl asked
  | asked films silent | refused films silent => exact absurd silent loud
  | answers answering => exact .answers (keeps answering)

/-- A promise of the local stream that is to be settled. -/
def streamWork : Option Bool → Nat
  | none => 1
  | some _ => 0

/-- The `RTCPeerConnection` is made when the first text arrives. -/
inductive Opened : Answerer → Option PeerConnection → Prop where
  | unopened : Opened .idle none
  | opened (as) : Opened as (some as.connection)

theorem Opened.sound {as : Answerer} {pc : PeerConnection} (opened : Opened as (some pc)) :
    pc.Sound := by
  cases opened
  exact as.sound

def offererUnnegotiated : Offerer → Bool
  | .idle => true
  | _ => false

def goneWork (gone : Bool) : Nat := if gone then 1 else 2

/-- The two ends of a viewer's connection, with the steps that are left. -/
inductive Link (camera : Bool) (parsable : Text → Bool) : Element → Viewer → Nat → Prop where
  | mk {k os as pc pending media gone toServer toViewer} (opened : Opened as pc)
      (filming : Filming camera parsable as pending media)
      (offering : Conveys ViewerReads .offer (os.sent true) as.received toViewer)
      (answering : Conveys (ServerReads parsable) .answer (as.sent false) os.received toServer) :
      Link camera parsable ⟨k, os.connection, offererUnnegotiated os⟩
        ⟨⟨pc, pending⟩, gone, toServer, toViewer⟩
        (os.work + as.work + streamWork media + toServer.length + toViewer.length + goneWork gone)

namespace Link

variable {camera : Bool} {parsable : Text → Bool} {el after : Element} {v : Viewer} {m : Nat}
  {generated : Text}

theorem fresh (k : ConnId) :
    Link camera parsable ⟨k, .new, true⟩ ⟨.load, false, [], []⟩
      (14 + streamWork (if camera then none else some true)) := by
  have link := @mk camera parsable k .idle .idle none 0 _ false [] [] .unopened .idle .nothing .nothing
  refine Eq.mp (congrArg _ ?_) link
  simp only [Offerer.work, Answerer.work, List.length_nil, goneWork, Bool.false_eq_true, if_false]
  omega

/-- The callback emits a signal, and the answer that it is given is the one to the offer. -/
theorem serverReceives {msg : Json} {rest : List Json} (link : Link camera parsable el v m)
    (first : v.toServer = msg :: rest) :
    ∃ signal m', soupWebsocketMessageCb (fun _ => some msg) parsable jsonFrame = .ok (some signal) ∧
      Link camera parsable (el.emit signal) { v with toServer := rest } m' ∧ m' < m := by
  obtain @⟨k, os, as, pc, pending, media, gone, toServer, toViewer, opened, filming, offering,
    answering⟩ := link
  subst first
  rcases answering.take with
    ⟨⟨signal, ok, plain⟩, later⟩ | ⟨a, sent, unreceived, ⟨signal, ok, is⟩, later⟩
  · cases signal with
    | setRemoteDescription sdp => cases plain
    | addIceCandidate mlineIndex candidate =>
        refine ⟨_, _, ok, .mk opened filming offering later, ?_⟩
        simp only [List.length_cons]
        omega
  · cases signal with
    | addIceCandidate mlineIndex candidate => cases is
    | setRemoteDescription sdp =>
        cases is
        cases as with
        | settled o a' =>
            cases sent
            have made := offering.sent_of_received Description.offer_injective
            cases os with
            | idle | creating => cases made
            | overtaken _ _ | accepting _ _ | settled _ _ => cases unreceived
            | setting o' =>
                refine ⟨_, _, ok, @mk camera parsable k (.overtaken o' a) (.settled o a) pc pending
                  media gone rest toViewer opened filming offering later, ?_⟩
                simp only [Offerer.work, List.length_cons]
                omega
            | offered o' =>
                refine ⟨_, _, ok, @mk camera parsable k (.accepting o' a) (.settled o a) pc pending
                  media gone rest toViewer opened filming offering later, ?_⟩
                simp only [Offerer.work, List.length_cons]
                omega
        | _ => cases sent

theorem negotiationNeeded (link : Link camera parsable el v m) (needed : el.unnegotiated = true) :
    ∃ m', Link camera parsable
      { el with webrtcbin := el.webrtcbin.chain .createOffer, unnegotiated := false }
      { v with toViewer := v.toViewer ++ [] } m' ∧ m' < m := by
  obtain @⟨k, os, as, pc, pending, media, gone, toServer, toViewer, opened, filming, offering,
    answering⟩ := link
  cases os with
  | idle =>
      simp only [List.append_nil]
      refine ⟨_, @mk camera parsable k .creating as pc pending media gone toServer toViewer opened
        filming offering answering, ?_⟩
      simp only [Offerer.work]
      omega
  | _ => cases needed

theorem webrtcbin {op : Operation} {result : Result} {pc : PeerConnection}
    (link : Link camera parsable el v m)
    (done : el.webrtcbin.advance generated = some (op, result, pc)) :
    ∃ after sent m', Broadcast.changeFunc { el with webrtcbin := pc } op result = some (after, sent) ∧
      after.connection = el.connection ∧
      Link camera parsable after { v with toViewer := v.toViewer ++ sent } m' ∧ m' < m := by
  obtain @⟨k, os, as, page, pending, media, gone, toServer, toViewer, opened, filming, offering,
    answering⟩ := link
  cases os with
  | idle | offered _ | settled _ _ => cases done
  | creating =>
      cases done
      refine ⟨_, _, _, rfl, rfl, @mk camera parsable k (.setting generated) as page pending media gone
        toServer _ opened filming (offering.send (viewerReads_offer generated)) answering, ?_⟩
      simp only [Offerer.work, List.length_append, List.length_singleton]
      omega
  | setting o =>
      cases done
      refine ⟨_, [], _, rfl, rfl, @mk camera parsable k (.offered o) as page pending media gone
        toServer _ opened filming (by rwa [List.append_nil]) answering, ?_⟩
      simp only [Offerer.work, List.append_nil]
      omega
  | overtaken o a =>
      cases done
      refine ⟨_, [], _, rfl, rfl, @mk camera parsable k (.accepting o a) as page pending media gone
        toServer _ opened filming (by rwa [List.append_nil]) answering, ?_⟩
      simp only [Offerer.work, List.append_nil]
      omega
  | accepting o a =>
      cases done
      refine ⟨_, [], _, rfl, rfl, @mk camera parsable k (.settled o a) as page pending media gone
        toServer _ opened filming (by rwa [List.append_nil]) answering, ?_⟩
      simp only [Offerer.work, List.append_nil]
      omega

/-- A candidate is sent to the page. -/
theorem serverCandidate (link : Link camera parsable el v m) (data : Json) :
    Link camera parsable el { v with toViewer := v.toViewer ++ [iceMessage data] } (m + 1) := by
  obtain @⟨k, os, as, pc, pending, media, gone, toServer, toViewer, opened, filming, offering,
    answering⟩ := link
  have means : ViewerReads (iceMessage data) none := rfl
  have counted := @mk camera parsable k os as pc pending media gone toServer _ opened filming
    (offering.other means) answering
  refine Eq.mp (congrArg _ ?_) counted
  simp only [List.length_append, List.length_singleton]
  omega

theorem viewerReceives {msg : Json} {rest : List Json} (link : Link camera parsable el v m)
    (first : v.toViewer = msg :: rest) :
    ∃ m', Link camera parsable el
      { v with page := v.page.onServerMessage camera msg, toViewer := rest } m' ∧ m' < m := by
  obtain @⟨k, os, as, pc, pending, media, gone, toServer, toViewer, opened, filming, offering,
    answering⟩ := link
  subst first
  have getD : pc.getD .new = as.connection := by cases opened <;> rfl
  rcases offering.take with ⟨plain, later⟩ | ⟨o, sent, unreceived, ⟨isSdp, holds⟩, later⟩
  · have page : ViewerPage.onServerMessage camera ⟨pc, pending⟩ msg =
        ⟨some as.connection, pending⟩ := by
      rw [ViewerPage.onServerMessage, plain, if_neg Bool.false_ne_true, getD]
    simp only [page]
    refine ⟨_, .mk (.opened as) filming later answering, ?_⟩
    simp only [List.length_cons]
    omega
  · cases as with
    | idle =>
        have unanswered := answering.unsent
        have page : ViewerPage.onServerMessage camera ⟨pc, pending⟩ msg =
            if camera then ⟨some (Answerer.hearing o).connection, pending + 1⟩
            else ⟨some (Answerer.hasty o).connection, pending⟩ := by
          simp only [ViewerPage.onServerMessage, isSdp, if_true, getD, ViewerPage.onIncomingSDP,
            ViewerPage.setRemoteDescription, holds]
          rfl
        simp only [page]
        have idle : pending = 0 ∧ media = if camera then none else some true := by
          cases filming with
          | idle => exact ⟨rfl, rfl⟩
          | asked films silent | refused films silent => cases silent
          | answers answering => cases answering
        obtain ⟨rfl, rfl⟩ := idle
        cases camera with
        | true =>
            refine ⟨_, @mk true parsable k os (.hearing o) _ 1 none gone toServer rest (.opened _)
              (.asked rfl trivial) later answering, ?_⟩
            simp only [Answerer.work, List.length_cons, if_true]
            omega
        | false =>
            refine ⟨_, @mk false parsable k os (.hasty o) _ 0 (some true) gone toServer rest
              (.opened _) (.answers trivial) later answering, ?_⟩
            simp only [Answerer.work, List.length_cons, Bool.false_eq_true, if_false]
            omega
    | _ => cases unreceived

theorem streamSettled {ok : Bool} {page : ViewerPage} (link : Link camera parsable el v m)
    (settles : v.page.streamSettled ok = some page) :
    ∃ m', Link camera parsable el { v with page := page } m' ∧ m' < m := by
  obtain @⟨k, os, as, pc, pending, media, gone, toServer, toViewer, opened, filming, offering,
    answering⟩ := link
  cases filming with
  | idle | refused films silent | answers answering => cases opened <;> cases settles
  | asked films silent =>
      cases opened with
      | unopened => cases settles
      | opened =>
          cases settles
          cases ok with
          | false =>
              refine ⟨_, @mk camera parsable k os as _ 0 (some false) gone toServer toViewer
                (.opened as) (.refused films silent) offering answering, ?_⟩
              simp only [streamWork]
              omega
          | true =>
              cases as with
              | hearing o =>
                  refine ⟨_, @mk camera parsable k os (.hasty o) _ 0 (some true) gone toServer
                    toViewer (.opened _) (.answers trivial) offering answering, ?_⟩
                  simp only [streamWork, Answerer.work]
                  omega
              | heard o =>
                  refine ⟨_, @mk camera parsable k os (.creating o) _ 0 (some true) gone toServer
                    toViewer (.opened _) (.answers trivial) offering answering, ?_⟩
                  simp only [streamWork, Answerer.work]
                  omega
              | _ => cases silent

/-- The operations of the page are done, and the answer is sent when it is set. -/
theorem operation {op : Operation} {result : Result} {pc after : PeerConnection}
    (link : Link camera parsable el v m) (valid : parsable generated = true)
    (page : v.page.webrtcPeerConnection = some pc)
    (done : pc.advance generated = some (op, result, after)) :
    ∃ m', Link camera parsable el
      { v with
        page := { v.page with
          webrtcPeerConnection := some (ViewerPage.settled after op result).1 }
        toServer := v.toServer ++ (ViewerPage.settled after op result).2 } m' ∧ m' < m := by
  obtain @⟨k, os, as, page', pending, media, gone, toServer, toViewer, opened, filming, offering,
    answering⟩ := link
  subst page
  cases opened
  cases as with
  | idle | heard _ | settled _ _ => cases done
  | hearing o =>
      cases done
      have silent : Filming camera parsable (.heard o) pending media := by
        cases filming with
        | asked films silent => exact .asked films trivial
        | refused films silent => exact .refused films trivial
        | answers answering => cases answering
      refine ⟨_, @mk camera parsable k os (.heard o) _ pending media gone (toServer ++ []) toViewer
        (.opened _) silent offering (by rwa [List.append_nil]), ?_⟩
      simp only [Answerer.work, List.append_nil]
      omega
  | hasty o =>
      cases done
      have answers : Filming camera parsable (.creating o) pending media :=
        filming.answering id nofun fun _ => trivial
      refine ⟨_, @mk camera parsable k os (.creating o) _ pending media gone (toServer ++ [])
        toViewer (.opened _) answers offering (by rwa [List.append_nil]), ?_⟩
      simp only [Answerer.work, List.append_nil]
      omega
  | creating o =>
      cases done
      have answers : Filming camera parsable (.setting o generated) pending media :=
        filming.answering id nofun fun _ => valid
      refine ⟨_, @mk camera parsable k os (.setting o generated) _ pending media gone
        (toServer ++ []) toViewer (.opened _) answers offering (by rwa [List.append_nil]), ?_⟩
      simp only [Answerer.work, List.append_nil]
      omega
  | setting o a =>
      cases done
      have parses : parsable a = true := by
        cases filming with
        | asked films silent | refused films silent => cases silent
        | answers answering => exact answering
      have answers : Filming camera parsable (.settled o a) pending media :=
        filming.answering id nofun fun _ => parses
      refine ⟨_, @mk camera parsable k os (.settled o a) _ pending media gone
        (toServer ++ [sdpMessage (descriptionJson (.answer a))]) toViewer
        (.opened _) answers offering (answering.send (serverReads_answer parses)), ?_⟩
      simp only [Answerer.work, List.length_append, List.length_singleton]
      omega

theorem viewerCandidate (link : Link camera parsable el v m) (ice : IceCandidate) :
    Link camera parsable el { v with toServer := v.toServer ++ [iceMessage ice.json] } (m + 1) := by
  obtain @⟨k, os, as, pc, pending, media, gone, toServer, toViewer, opened, filming, offering,
    answering⟩ := link
  have counted := @mk camera parsable k os as pc pending media gone _ toViewer opened filming
    offering (answering.other (serverReads_candidate parsable ice))
  refine Eq.mp (congrArg _ ?_) counted
  simp only [List.length_append, List.length_singleton]
  omega

theorem leaves (link : Link camera parsable el v m) (here : v.gone = false) :
    ∃ m', Link camera parsable el { v with gone := true } m' ∧ m' < m := by
  obtain @⟨k, os, as, pc, pending, media, gone, toServer, toViewer, opened, filming, offering,
    answering⟩ := link
  subst here
  refine ⟨_, .mk opened filming offering answering, ?_⟩
  simp only [goneWork, if_true, Bool.false_eq_true, if_false]
  omega

theorem positive (link : Link camera parsable el v m) : 0 < m := by
  obtain @⟨k, os, as, pc, pending, media, gone, toServer, toViewer, opened, filming, offering,
    answering⟩ := link
  cases gone <;> exact Nat.lt_of_lt_of_le (by decide) (Nat.le_add_left _ _)

theorem sound (link : Link camera parsable el v m) : el.webrtcbin.Sound := by
  obtain @⟨k, os, as, pc, pending, media, gone, toServer, toViewer, opened, filming, offering,
    answering⟩ := link
  exact os.sound

theorem page_sound {pc : PeerConnection} (link : Link camera parsable el v m)
    (page : v.page.webrtcPeerConnection = some pc) : pc.Sound := by
  obtain @⟨k, os, as, pc, pending, media, gone, toServer, toViewer, opened, filming, offering,
    answering⟩ := link
  subst page
  exact opened.sound

end Link

/-! ## All viewers -/

open Broadcast

/-- A viewer has a pipeline, which is no other one's. -/
structure Live (w : Broadcast) (k : ConnId) (n : Nat) (el : Element) (v : Viewer) : Prop where
  entry : w.server.receivers k = some ⟨k, n⟩
  element : w.elements n = some el
  own : el.connection = k
  sole : ∀ n' el', w.elements n' = some el' → el'.connection = k → n' = n
  viewer : w.viewers k = some v

/-- No pipeline is left for the viewer. -/
structure Unserved (w : Broadcast) (k : ConnId) : Prop where
  entry : w.server.receivers k = none
  elements : ∀ n el, w.elements n = some el → el.connection ≠ k

/-- How a viewer fares, with the steps that are left for it. -/
inductive Served (camera : Bool) (parsable : Text → Bool) (w : Broadcast) (k : ConnId) :
    Nat → Prop where
  | absent (viewer : w.viewers k = none) (unserved : Unserved w k) : Served camera parsable w k 0
  | live {n el v m} (live : Live w k n el v) (link : Link camera parsable el v m) :
      Served camera parsable w k m
  | departed {v} (viewer : w.viewers k = some v) (gone : v.gone = true) (drained : v.toServer = [])
      (sound : ∀ pc, v.page.webrtcPeerConnection = some pc → pc.Sound) (unserved : Unserved w k) :
      Served camera parsable w k 0

theorem Served.page_sound {camera : Bool} {parsable : Text → Bool} {w : Broadcast} {k : ConnId}
    {v : Viewer} {pc : PeerConnection} {m : Nat} (served : Served camera parsable w k m)
    (viewer : w.viewers k = some v) (page : v.page.webrtcPeerConnection = some pc) : pc.Sound := by
  cases served with
  | absent absent unserved => cases absent.symm.trans viewer
  | live live link =>
      cases live.viewer.symm.trans viewer
      exact link.page_sound page
  | departed there gone drained sound unserved =>
      cases there.symm.trans viewer
      exact sound pc page

/-- Only the viewer is affected. -/
structure Apart (k : ConnId) (w w' : Broadcast) : Prop where
  receivers : ∀ j, j ≠ k → w'.server.receivers j = w.server.receivers j
  viewers : ∀ j, j ≠ k → w'.viewers j = w.viewers j
  elements : ∀ n el, el.connection ≠ k → (w'.elements n = some el ↔ w.elements n = some el)

section World

variable {camera : Bool} {parsable : Text → Bool} {w w' : Broadcast} {k j : ConnId} {n : Nat}
  {el el' : Element} {v v' : Viewer} {m : Nat}

theorem Unserved.apart (unserved : Unserved w j) (apart : Apart k w w') (other : j ≠ k) :
    Unserved w' j where
  entry := (apart.receivers j other).trans unserved.entry
  elements n el found own := by
    have before := (apart.elements n el (own ▸ other)).mp found
    exact unserved.elements n el before own

/-- The other viewers fare as before. -/
theorem Served.apart (served : Served camera parsable w j m) (apart : Apart k w w')
    (other : j ≠ k) : Served camera parsable w' j m := by
  have viewers := apart.viewers j other
  cases served with
  | absent viewer unserved =>
      exact .absent (viewers.trans viewer) (unserved.apart apart other)
  | @live n el v m live link =>
      refine .live ⟨(apart.receivers j other).trans live.entry, ?_, live.own, ?_,
        viewers.trans live.viewer⟩ link
      · exact (apart.elements n el (live.own ▸ other)).mpr live.element
      · intro n' el' found own
        exact live.sole n' el' ((apart.elements n' el' (own ▸ other)).mp found) own
  | departed viewer gone drained sound unserved =>
      exact .departed (viewers.trans viewer) gone drained sound (unserved.apart apart other)

/-- An element and the page of its viewer are written. -/
theorem Live.update (live : Live w k n el v) (own : el'.connection = k)
    (receivers : w'.server.receivers = w.server.receivers)
    (elements : w'.elements = Function.update w.elements n (some el'))
    (viewers : w'.viewers = Function.update w.viewers k (some v')) :
    Live w' k n el' v' ∧ Apart k w w' := by
  refine ⟨⟨?_, ?_, own, ?_, ?_⟩, ?_, ?_, ?_⟩
  · rw [receivers, live.entry]
  · rw [elements, Function.update_self]
  · intro n' el'' found own'
    rw [elements] at found
    by_cases same : n' = n
    · exact same
    · rw [Function.update_of_ne same] at found
      exact live.sole n' el'' found own'
  · rw [viewers, Function.update_self]
  · intro j other
    rw [receivers]
  · intro j other
    rw [viewers, Function.update_of_ne other]
  · intro n' el'' other
    rw [elements]
    by_cases same : n' = n
    · subst same
      rw [Function.update_self, live.element, Option.some.injEq, Option.some.injEq]
      refine iff_of_false ?_ ?_
      · rintro rfl
        exact other own
      · rintro rfl
        exact other live.own
    · rw [Function.update_of_ne same]

theorem Live.setViewer (live : Live w k n el v) (v' : Viewer) :
    Live (w.setViewer k v') k n el v' ∧ Apart k w (w.setViewer k v') :=
  live.update live.own rfl (by rw [← live.element, Function.update_eq_self]; rfl) rfl

theorem Live.setElement (live : Live w k n el v) (own : el'.connection = k) (sent : List Json) :
    Live (w.setElement n el' sent) k n el' { v with toViewer := v.toViewer ++ sent } ∧
      Apart k w (w.setElement n el' sent) := by
  refine live.update own rfl rfl ?_
  rw [Broadcast.setElement, own, live.viewer]
  rfl

/-- What the server does with a text that it can act on. -/
theorem Live.message {msg : Json} {signal : Signal} (live : Live w k n el v)
    (ok : soupWebsocketMessageCb (fun _ => some msg) parsable jsonFrame = .ok (some signal)) :
    (w.message parsable k msg).halted = w.halted ∧
      (w.message parsable k msg).server.receivers = w.server.receivers ∧
      (w.message parsable k msg).elements = Function.update w.elements n (some (el.emit signal)) ∧
      (w.message parsable k msg).viewers = w.viewers := by
  have served : w.server.step (fun _ => some msg) parsable (.message k jsonFrame) =
      .ok { w.server with emitted := w.server.emitted ++ [(n, signal)] } := by
    simp only [StreamServer.step, live.entry, ok]
  have message : w.message parsable k msg =
      { w with
        server := { w.server with emitted := w.server.emitted ++ [(n, signal)] }
        elements := emit w.elements (n, signal) } := by
    simp only [Broadcast.message, served, List.drop_left, List.foldl_cons, List.foldl_nil]
  rw [message]
  refine ⟨rfl, rfl, ?_, rfl⟩
  simp only [emit, live.element, Option.map_some]

theorem Served.unserved (served : Served camera parsable w k m) (absent : w.viewers k = none) :
    Unserved w k := by
  cases served with
  | absent viewer unserved => exact unserved
  | live live link => cases absent.symm.trans live.viewer
  | departed viewer gone drained sound unserved => exact unserved

/-- A viewer has a pipeline, or is gone for good. -/
theorem Served.of_viewer (served : Served camera parsable w k m) (viewer : w.viewers k = some v) :
    (∃ n el, Live w k n el v ∧ Link camera parsable el v m) ∨
      v.gone = true ∧ v.toServer = [] ∧ Unserved w k := by
  cases served with
  | absent absent unserved => cases absent.symm.trans viewer
  | live live link =>
      cases live.viewer.symm.trans viewer
      exact Or.inl ⟨_, _, live, link⟩
  | departed there gone drained sound unserved =>
      cases there.symm.trans viewer
      exact Or.inr ⟨gone, drained, unserved⟩

theorem Served.live_of_element (served : Served camera parsable w el.connection m)
    (found : w.elements n = some el) :
    ∃ v, Live w el.connection n el v ∧ Link camera parsable el v m := by
  cases served with
  | absent absent unserved => exact absurd rfl (unserved.elements n el found)
  | live live link =>
      obtain rfl := live.sole n el found rfl
      cases live.element.symm.trans found
      exact ⟨_, live, link⟩
  | departed there gone drained sound unserved => exact absurd rfl (unserved.elements n el found)

/-- What a step does to the steps that are left for the viewer that it is about. -/
inductive Counts (act : Act) (viewer : Option Viewer) (before after : Nat) : Prop where
  | arrives (comes : act.arrives = true) (absent : viewer = none) (most : after ≤ 15)
  | gathers (gathers : act.gathers = true) (present : viewer ≠ none) (more : after = before + 1)
  | works (present : viewer ≠ none) (less : after < before)

/-- One viewer has been served, and goes on. -/
structure Stepped (camera : Bool) (parsable : Text → Bool) (w w' : Broadcast) (act : Act)
    (k : ConnId) (before after : Nat) : Prop where
  served : Served camera parsable w' k after
  apart : Apart k w w'
  present : w'.viewers k ≠ none
  running : w'.halted = none
  counts : Counts act (w.viewers k) before after

theorem serves_eq (running : w.halted = none) (next : Option Broadcast) :
    w.serves next = next := by
  rw [serves, running]

section Steps

variable {work : ConnId → Nat} (running : w.halted = none)
  (served : ∀ k, Served camera parsable w k (work k))
include running served

/-- A page does something. -/
theorem viewed {f : Viewer → Option Viewer} {act : Act} (fires : w.views k f = some w')
    (linked : ∀ {el v v' m}, v.gone = false → Link camera parsable el v m → f v = some v' →
      ∃ m', Link camera parsable el v' m' ∧
        if act.gathers then m' = m + 1 else m' < m) :
    ∃ k after, Stepped camera parsable w w' act k (work k) after := by
  simp only [views] at fires
  split at fires
  · cases fires
  · next v viewer =>
      split at fires
      · cases fires
      · next here =>
          obtain ⟨v', made, rfl⟩ := Option.map_eq_some_iff.mp fires
          rcases (served k).of_viewer viewer with ⟨n, el, live, link⟩ | ⟨gone, -⟩
          · obtain ⟨m', link', counts⟩ := linked (Bool.eq_false_iff.mpr here) link made
            obtain ⟨live', apart⟩ := live.setViewer v'
            have present : w.viewers k ≠ none := by simp [viewer]
            refine ⟨k, m', .live live' link', apart, by simp [live'.viewer], running, ?_⟩
            split at counts
            · next gathers => exact .gathers gathers present counts
            · exact .works present counts
          · exact absurd gone here

/-- A callback of an element runs. -/
theorem called {act : Act} {sent : List Json} (found : w.elements n = some el)
    (fires : w.serves (some (w.setElement n el' sent)) = some w')
    (own : el'.connection = el.connection)
    (linked : ∀ {v m}, Link camera parsable el v m →
      ∃ m', Link camera parsable el' { v with toViewer := v.toViewer ++ sent } m' ∧
        if act.gathers then m' = m + 1 else m' < m) :
    ∃ k after, Stepped camera parsable w w' act k (work k) after := by
  rw [serves_eq running] at fires
  cases fires
  obtain ⟨v, live, link⟩ := (served el.connection).live_of_element found
  obtain ⟨m', link', counts⟩ := linked link
  obtain ⟨live', apart⟩ := live.setElement own sent
  have present : w.viewers el.connection ≠ none := by simp [live.viewer]
  refine ⟨el.connection, m', .live live' link', apart, by simp [live'.viewer], running, ?_⟩
  split at counts
  · next gathers => exact .gathers gathers present counts
  · exact .works present counts

theorem connects (fires : w.step camera parsable (.connects k n) = some w') :
    ∃ after, Stepped camera parsable w w' (.connects k n) k (work k) after := by
  simp only [step] at fires
  split at fires
  · next viewer element =>
      rw [serves_eq running] at fires
      cases fires
      have unserved := (served k).unserved viewer
      refine ⟨_, .live (n := n) ⟨?_, ?_, rfl, ?_, ?_⟩ (.fresh k), ⟨?_, ?_, ?_⟩, by simp, running,
        .arrives rfl viewer ?_⟩
      · exact w.server.receivers_soupWebsocketHandler k n
      · exact Function.update_self ..
      · intro n' el' found own
        by_contra other
        simp only [Function.update_of_ne other] at found
        exact unserved.elements n' el' found own
      · exact Function.update_self ..
      · intro j other
        exact Function.update_of_ne other ..
      · intro j other
        exact Function.update_of_ne other ..
      · intro n' el' other
        by_cases same : n' = n
        · subst same
          simp only [Function.update_self, element]
          refine iff_of_false ?_ nofun
          rintro ⟨⟩
          exact other rfl
        · simp only [Function.update_of_ne same]
      · cases camera <;> simp [streamWork]
  · cases fires

theorem serverReceives (fires : w.step camera parsable (.serverReceives k) = some w') :
    ∃ after, Stepped camera parsable w w' (.serverReceives k) k (work k) after := by
  simp only [step] at fires
  split at fires
  · cases fires
  · next v viewer =>
      split at fires
      · cases fires
      · next msg rest first =>
          rw [serves_eq running] at fires
          cases fires
          have present : w.viewers k ≠ none := by simp [viewer]
          rcases (served k).of_viewer viewer with ⟨n, el, live, link⟩ | ⟨-, drained, -⟩
          · obtain ⟨signal, m', ok, link', less⟩ := link.serverReceives first
            obtain ⟨waits, -⟩ := live.setViewer { v with toServer := rest }
            obtain ⟨halted, receivers, elements, viewers⟩ := waits.message ok
            have own : (el.emit signal).connection = k := by
              rw [← live.own]
              cases signal <;> rfl
            obtain ⟨live', apart⟩ := live.update own receivers elements viewers
            exact ⟨m', .live live' link', apart, by simp [live'.viewer], halted.trans running,
              .works present less⟩
          · cases drained.symm.trans first

theorem closes (fires : w.step camera parsable (.closed k) = some w') :
    ∃ after, Stepped camera parsable w w' (.closed k) k (work k) after := by
  simp only [step] at fires
  split at fires
  · next v entry viewer listed =>
      split at fires
      · next gone =>
          rw [serves_eq running] at fires
          cases fires
          have present : w.viewers k ≠ none := by simp [viewer]
          rcases (served k).of_viewer viewer with ⟨n, el, live, link⟩ | ⟨-, -, unserved⟩
          · cases live.entry.symm.trans listed
            have elements : ∀ n' el', Function.update w.elements n none n' = some el' →
                n' ≠ n ∧ w.elements n' = some el' := by
              intro n' el' found
              by_cases same : n' = n
              · rw [same, Function.update_self] at found
                cases found
              · rw [Function.update_of_ne same] at found
                exact ⟨same, found⟩
            refine ⟨0, .departed (Function.update_self ..) gone rfl (fun pc => link.page_sound)
              ⟨Function.update_self .., ?_⟩, ⟨?_, ?_, ?_⟩, by simp [setViewer], running,
              .works present link.positive⟩
            · intro n' el' found own
              obtain ⟨other, before⟩ := elements n' el' found
              exact other (live.sole n' el' before own)
            · intro j other
              exact Function.update_of_ne other ..
            · intro j other
              exact Function.update_of_ne other ..
            · intro n' el' other
              refine ⟨fun found => (elements n' el' found).2, fun before => ?_⟩
              have different : n' ≠ n := by
                rintro rfl
                cases live.element.symm.trans before
                exact other live.own
              exact (Function.update_of_ne different ..).trans before
          · cases unserved.entry.symm.trans listed
      · cases fires
  · cases fires

theorem stepped {act : Act} (generates : act.Generates parsable)
    (fires : w.step camera parsable act = some w') :
    ∃ k after, Stepped camera parsable w w' act k (work k) after := by
  cases act with
  | connects k n => exact ⟨k, connects running served fires⟩
  | serverReceives k => exact ⟨k, serverReceives running served fires⟩
  | closed k => exact ⟨k, closes running served fires⟩
  | negotiationNeeded n =>
      simp only [step] at fires
      split at fires
      · cases fires
      · next el found =>
          split at fires
          · next needed =>
              exact called running served found fires rfl fun link => link.negotiationNeeded needed
          · cases fires
  | webrtcbin n generated =>
      simp only [step] at fires
      split at fires
      · cases fires
      · next el found =>
          split at fires
          · cases fires
          · next op result pc done =>
              obtain ⟨v, live, link⟩ := (served el.connection).live_of_element found
              obtain ⟨after, sent, m', made, own, -⟩ := link.webrtcbin done
              rw [made] at fires
              refine called running served found fires own fun link => ?_
              obtain ⟨after', sent', m', made', -, link', less⟩ := link.webrtcbin done
              cases made.symm.trans made'
              exact ⟨m', link', less⟩
  | serverCandidate n mlineIndex candidate =>
      simp only [step] at fires
      split at fires
      · cases fires
      · next el found =>
          split at fires
          · exact called running served found fires rfl fun link => ⟨_, link.serverCandidate _, rfl⟩
          · cases fires
  | viewerReceives k =>
      refine viewed running served fires fun here link made => ?_
      split at made
      · cases made
      · next msg rest first =>
          cases made
          exact link.viewerReceives first
  | localStream k ok =>
      refine viewed running served fires fun here link made => ?_
      obtain ⟨page, settles, rfl⟩ := Option.map_eq_some_iff.mp made
      exact link.streamSettled settles
  | operation k generated =>
      refine viewed running served fires fun here link made => ?_
      split at made
      · cases made
      · next pc page =>
          split at made
          · cases made
          · next op result after done =>
              cases made
              exact link.operation generates page done
  | viewerCandidate k candidate =>
      refine viewed running served fires fun here link made => ?_
      split at made
      · cases made
      · split at made
        · cases made
          exact ⟨_, link.viewerCandidate candidate, rfl⟩
        · cases made
  | leaves k =>
      refine viewed running served fires fun here link made => ?_
      cases made
      exact link.leaves here

end Steps

end World

/-! ## Every run -/

theorem map_update {work : ConnId → Nat} {order : List ConnId} {k : ConnId} (new : k ∉ order)
    (m : Nat) : order.map (Function.update work k m) = order.map work := by
  refine List.map_congr_left fun j inside => ?_
  rw [Function.update_of_ne]
  rintro rfl
  exact new inside

theorem sum_update (work : ConnId → Nat) {order : List ConnId} {k : ConnId} (nodup : order.Nodup)
    (inside : k ∈ order) (m : Nat) :
    (order.map (Function.update work k m)).sum + work k = (order.map work).sum + m := by
  induction order with
  | nil => cases inside
  | cons j rest ih =>
      obtain ⟨notIn, later⟩ := List.nodup_cons.mp nodup
      rw [List.map_cons, List.map_cons, List.sum_cons, List.sum_cons]
      by_cases same : k = j
      · subst same
        rw [Function.update_self, map_update notIn]
        omega
      · have tail := ih later ((List.mem_cons.mp inside).resolve_left same)
        rw [Function.update_of_ne (Ne.symm same)]
        omega

/-- Every viewer is served, with the steps that are left for all of them. -/
inductive Serving (camera : Bool) (parsable : Text → Bool) (w : Broadcast) : Nat → Prop where
  | mk {order : List ConnId} {work : ConnId → Nat} (running : w.halted = none) (nodup : order.Nodup)
      (listed : ∀ k, k ∈ order ↔ w.viewers k ≠ none)
      (served : ∀ k, Served camera parsable w k (work k)) :
      Serving camera parsable w (order.map work).sum

namespace Serving

variable {camera : Bool} {parsable : Text → Bool} {w w' : Broadcast} {total : Nat} {act : Act}

theorem start : Serving camera parsable .start 0 :=
  @mk camera parsable .start [] (fun _ => 0) rfl .nil
    (fun _ => iff_of_false nofun (by simp [Broadcast.start]))
    fun _ => .absent rfl ⟨rfl, nofun⟩

theorem step (serving : Serving camera parsable w total) (generates : act.Generates parsable)
    (fires : w.step camera parsable act = some w') :
    ∃ total', Serving camera parsable w' total' ∧
      (act.arrives = true ∧ total' ≤ total + 15 ∨ act.gathers = true ∧ total' = total + 1 ∨
        total' < total) := by
  obtain @⟨order, work, running, nodup, listed, served⟩ := serving
  obtain ⟨k, after, stepped⟩ := stepped running served generates fires
  have served' : ∀ j, Served camera parsable w' j (Function.update work k after j) := by
    intro j
    by_cases self : j = k
    · subst self
      rw [Function.update_self]
      exact stepped.served
    · rw [Function.update_of_ne self]
      exact (served j).apart stepped.apart self
  have others : ∀ j, j ≠ k → (j ∈ order ↔ w'.viewers j ≠ none) := fun j other => by
    rw [stepped.apart.viewers j other, listed j]
  have going (present : w.viewers k ≠ none) : ∀ j, j ∈ order ↔ w'.viewers j ≠ none := by
    intro j
    by_cases self : j = k
    · rw [self]
      exact iff_of_true ((listed k).mpr present) stepped.present
    · exact others j self
  cases stepped.counts with
  | arrives comes absent most =>
      have new : k ∉ order := fun inside => (listed k).mp inside absent
      refine ⟨_, @mk camera parsable w' (k :: order) (Function.update work k after) stepped.running
        (List.nodup_cons.mpr ⟨new, nodup⟩) (fun j => ?_) served', Or.inl ⟨comes, ?_⟩⟩
      · by_cases self : j = k
        · rw [self]
          exact iff_of_true List.mem_cons_self stepped.present
        · rw [List.mem_cons, ← others j self]
          exact or_iff_right self
      · rw [List.map_cons, List.sum_cons, Function.update_self, map_update new]
        omega
  | gathers gathers present more =>
      have sum := sum_update work nodup ((listed k).mpr present) after
      exact ⟨_, .mk stepped.running nodup (going present) served', Or.inr (Or.inl ⟨gathers, by omega⟩)⟩
  | works present less =>
      have sum := sum_update work nodup ((listed k).mpr present) after
      exact ⟨_, .mk stepped.running nodup (going present) served', Or.inr (Or.inr (by omega))⟩

/-- Sixteen steps for each viewer, and two for each candidate. -/
theorem run (acts : List Act) (generate : ∀ act ∈ acts, act.Generates parsable)
    (serving : Serving camera parsable w total)
    (done : (broadcast camera parsable).exec w acts = some w') :
    ∃ total', Serving camera parsable w' total' ∧
      acts.length + total' ≤ total + 16 * acts.countP Act.arrives + 2 * acts.countP Act.gathers := by
  induction acts generalizing w total with
  | nil =>
      cases done
      exact ⟨total, serving, by simp⟩
  | cons act rest ih =>
      obtain ⟨next, fires, tail⟩ := Option.bind_eq_some_iff.mp done
      obtain ⟨middle, after, counts⟩ := serving.step (generate act List.mem_cons_self) fires
      obtain ⟨total', final, bound⟩ :=
        ih (fun later inside => generate later (List.mem_cons_of_mem _ inside)) after tail
      refine ⟨total', final, ?_⟩
      rw [List.countP_cons, List.countP_cons, List.length_cons]
      rcases counts with ⟨comes, most⟩ | ⟨gathers, more⟩ | less
      · rw [if_pos comes]
        omega
      · rw [if_pos gathers]
        omega
      · omega

end Serving

/-! ## What becomes of a viewer -/

/-- The answer was made by the page of the viewer, to the offer of its own pipeline. -/
def Agrees (el : Element) (v : Viewer) : Prop :=
  ∀ a, el.webrtcbin.remoteDescription = some (.answer a) → ∃ o,
    el.webrtcbin.localDescription = some (.offer o) ∧
      v.page.webrtcPeerConnection = some (Answerer.settled o a).connection

/-- The ends agree on an offer and its answer, or the page has no camera and has not answered. -/
inductive Outcome (camera : Bool) (el : Element) (v : Viewer) : Prop where
  | negotiated {o a} (element : el.webrtcbin = (Offerer.settled o a).connection)
      (page : v.page.webrtcPeerConnection = some (Answerer.settled o a).connection)
  | refused {o} (films : camera = true) (element : el.webrtcbin = (Offerer.offered o).connection)
      (page : v.page.webrtcPeerConnection = some (Answerer.heard o).connection)
      (settled : v.page.localStreams = 0)

section Outcomes

variable {camera : Bool} {parsable : Text → Bool} {w : Broadcast} {k : ConnId} {n : Nat}
  {el : Element} {v : Viewer} {m : Nat}

theorem Link.agrees (link : Link camera parsable el v m) : Agrees el v := by
  obtain @⟨k, os, as, pc, pending, media, gone, toServer, toViewer, opened, filming, offering,
    answering⟩ := link
  intro a answered
  cases os with
  | settled o a' =>
      cases answered
      have made := answering.sent_of_received Description.answer_injective
      cases as with
      | settled o' a' =>
          cases made
          cases offering.sent_of_received Description.offer_injective
          cases opened
          exact ⟨o, rfl, rfl⟩
      | _ => cases made
  | _ => cases answered

/-- Who has left is forgotten, and who has not has nothing left to wait for. -/
theorem Live.outcome (running : w.halted = none) (live : Live w k n el v)
    (link : Link camera parsable el v m)
    (rest : ∀ act, act.unasked = false → w.step camera parsable act = none) :
    v.gone = false ∧ v.toServer = [] ∧ v.toViewer = [] ∧ Outcome camera el v := by
  obtain ⟨entry, element, own, -, viewer⟩ := live
  obtain @⟨k', os, as, pc, pending, media, gone, toServer, toViewer, opened, filming, offering,
    answering⟩ := link
  have closes := rest (.closed k) rfl
  have reads := rest (.serverReceives k) rfl
  have needs := rest (.negotiationNeeded n) rfl
  have works := rest (.webrtcbin n []) rfl
  have views := rest (.viewerReceives k) rfl
  have streams := rest (.localStream k true) rfl
  have operates := rest (.operation k []) rfl
  simp only [step, viewer, entry, element, serves_eq running] at closes reads needs works
  have here : gone = false := by
    cases gone with
    | false => rfl
    | true => cases closes
  subst here
  simp only [step, Broadcast.views, viewer, Bool.false_eq_true, if_false, Option.map_eq_none_iff]
    at views streams operates
  have unread : toServer = [] := by
    cases toServer with
    | nil => rfl
    | cons msg later => cases reads
  have unseen : toViewer = [] := by
    cases toViewer with
    | nil => rfl
    | cons msg later => cases views
  subst unread
  subst unseen
  refine ⟨rfl, rfl, rfl, ?_⟩
  have heard := offering.arrived Description.offer_injective
  have answered := answering.arrived Description.answer_injective
  cases os with
  | idle => cases needs
  | creating | setting _ | overtaken _ _ | accepting _ _ => cases works
  | offered o =>
      cases as with
      | idle => cases heard
      | hearing _ | hasty _ | creating _ | setting _ _ =>
          cases opened
          cases operates
      | heard o' =>
          cases heard
          cases opened
          cases filming with
          | asked films silent => cases streams
          | refused films silent => exact .refused films rfl rfl rfl
          | answers answering => cases answering
      | settled o' a => cases answered
  | settled o a =>
      cases as with
      | idle => cases heard
      | hearing _ | hasty _ | creating _ | setting _ _ =>
          cases opened
          cases operates
      | heard _ => cases answered
      | settled o' a' =>
          cases heard
          cases answered
          cases opened
          exact .negotiated rfl rfl

end Outcomes

/-- What holds of the server and its viewers, whatever has happened until now. -/
structure Serves (camera : Bool) (parsable : Text → Bool) (acts : List Act) (w : Broadcast) :
    Prop where
  /-- No viewer has ended the server. -/
  running : w.halted = none
  /-- Who is there has a pipeline, which is no other viewer's, and who has gone leaves none. -/
  own : ∀ k v, w.viewers k = some v →
    (∃ n el, Live w k n el v ∧ Agrees el v) ∨ v.gone = true ∧ Unserved w k
  /-- Every pipeline is a viewer's, and refuses no operation. -/
  element : ∀ n el, w.elements n = some el → (∃ v, Live w el.connection n el v) ∧ el.webrtcbin.Sound
  page : ∀ k v pc, w.viewers k = some v → v.page.webrtcPeerConnection = some pc → pc.Sound
  bounded : acts.length ≤ 16 * acts.countP Act.arrives + 2 * acts.countP Act.gathers
  /-- Nothing stops before every viewer has been negotiated with or has gone. -/
  completes : (∀ act, act.unasked = false → w.step camera parsable act = none) →
    ∀ k v, w.viewers k = some v → v.gone = true ∧ Unserved w k ∨
      v.gone = false ∧ v.toServer = [] ∧ v.toViewer = [] ∧
        ∃ n el, Live w k n el v ∧ Outcome camera el v

/-- Any number of viewers come and go, and the server serves each of them. -/
theorem viewers_served (camera : Bool) (parsable : Text → Bool) {acts : List Act} {w : Broadcast}
    (generate : ∀ act ∈ acts, act.Generates parsable)
    (done : (broadcast camera parsable).exec .start acts = some w) :
    Serves camera parsable acts w := by
  obtain ⟨total, serving, bound⟩ := Serving.run acts generate .start done
  obtain @⟨order, work, running, nodup, listed, served⟩ := serving
  refine ⟨running, fun k v viewer => ?_, fun n el found => ?_, fun k v pc viewer page => ?_, by omega,
    fun rest k v viewer => ?_⟩
  · exact ((served k).of_viewer viewer).imp (fun ⟨n, el, live, link⟩ => ⟨n, el, live, link.agrees⟩)
      fun gone => ⟨gone.1, gone.2.2⟩
  · obtain ⟨v, live, link⟩ := (served el.connection).live_of_element found
    exact ⟨⟨v, live⟩, link.sound⟩
  · exact (served k).page_sound viewer page
  · rcases (served k).of_viewer viewer with ⟨n, el, live, link⟩ | ⟨gone, -, unserved⟩
    · obtain ⟨here, toServer, toViewer, outcome⟩ := live.outcome running link rest
      exact Or.inr ⟨here, toServer, toViewer, n, el, live, outcome⟩
    · exact Or.inl ⟨gone, unserved⟩

/-- One viewer is negotiated with while another one, on the element with a lower number, leaves. -/
theorem viewers_served_two :
    ∃ w el, Serves true (fun _ => true) [.connects 0 1, .connects 1 0, .negotiationNeeded 1,
      .negotiationNeeded 0, .webrtcbin 1 "o".toList, .webrtcbin 1 [], .webrtcbin 0 "p".toList,
      .viewerReceives 0, .serverCandidate 1 0 "c".toList, .localStream 0 true, .viewerReceives 1,
      .operation 0 [], .operation 0 "a".toList, .leaves 1, .operation 0 [],
      .viewerCandidate 0 ⟨"d".toList, none, none⟩, .closed 1, .serverReceives 0, .serverReceives 0,
      .webrtcbin 1 [], .viewerReceives 0] w ∧ w.elements 1 = some el ∧
      el.webrtcbin = (Offerer.settled "o".toList "a".toList).connection ∧ w.elements 0 = none :=
  ⟨_, _, viewers_served true _ (fun act _ => by cases act <;> trivial) rfl, rfl, rfl, rfl⟩

end GstWebrtc.Sendonly
