import GstWebrtc.Base.PyText
import GstWebrtc.Check.Observer

/-!
# Waiting for data channels and messages

`wait_for_data_channel` and `wait_for_message` give a string to `wait_for`, which
takes it for a container: `s in states` is then the search for a part of a
string.  A wait for a text returns when it finds a part of the text, and it
forgets what was passed before that part.
-/

namespace GstWebrtc.Check

open GstWebrtc.Base GstWebrtc.Base.Monitor

/-- `s in states` for a string. -/
def inText (text s : Text) : Bool := PyText.occursIn s text

/-- What the observers of a peer read of a `DataChannelObserver`. -/
structure DataChannel where
  ident : Text
  location : Text
  deriving DecidableEq

/-- The data channels of a `WebRTCObserver`. -/
structure WebRTCObserver where
  dataChannels : List DataChannel
  dataChannelsObserver : StateObserver Text

namespace WebRTCObserver

def findChannel (ident : Text) (self : WebRTCObserver) : Option DataChannel :=
  self.dataChannels.find? fun c => c.ident = ident

/--
The channel is appended before the lock is taken, which no wait can tell from
appending it under the lock: the waits read the observer only.
-/
def addChannel (channel : DataChannel) (self : WebRTCObserver) : WebRTCObserver where
  dataChannels := self.dataChannels ++ [channel]
  dataChannelsObserver := self.dataChannelsObserver.update channel.ident

def waitForDataChannel (ident : Text) (self : WebRTCObserver) : Option (Text × WebRTCObserver) :=
  (self.dataChannelsObserver.waitFor (inText ident)).map fun (s, after) =>
    (s, { self with dataChannelsObserver := after })

end WebRTCObserver

/-- `add_channel` and `wait_for_data_channel` of one `WebRTCObserver`. -/
def channels : Monitor WebRTCObserver DataChannel Text Text where
  start := ⟨[], none, []⟩
  perform := WebRTCObserver.addChannel
  serve := WebRTCObserver.waitForDataChannel

/-- `got_message` and `wait_for_message` of one `DataChannelObserver`. -/
def messages : Monitor (StateObserver Text) Text Text Text := observer inText none

theorem channels_carries :
    Carries channels inText DataChannel.ident WebRTCObserver.dataChannelsObserver where
  start := rfl
  perform _ _ := rfl
  serve states shared := by
    simp only [channels, WebRTCObserver.waitForDataChannel, Option.map_map]
    exact Option.map_id'

theorem messages_carries : Carries messages inText id id := observer_carries inText none

/-! ## Exact waits -/

section Waits

variable {Shared Command Thread : Type} [DecidableEq Thread]

section Properties

variable (ident : Command → Text) (inner : Shared → StateObserver Text)

/-- The text has been passed to the observer. -/
def Added (text : Text) (log : List Command) : Prop := text ∈ log.map ident

instance (text : Text) (log : List Command) : Decidable (Added ident text log) :=
  inferInstanceAs (Decidable (text ∈ log.map ident))

/-- A wait has returned for texts only that had been added. -/
def Sound (w : World Thread Shared Command Text Text) : Prop :=
  ∀ entry ∈ w.served, Added ident entry.request entry.log

instance (w : World Thread Shared Command Text Text) : Decidable (Sound ident w) :=
  inferInstanceAs (Decidable (∀ entry ∈ w.served, Added ident entry.request entry.log))

/--
A wait has returned for texts only that had been added, and no thread is asleep
for a text that has been added; a thread with a notification looks again.
-/
structure Exact (w : World Thread Shared Command Text Text) : Prop where
  sound : Sound ident w
  complete : ∀ thread text, w.place thread = .asleep text → ¬ Added ident text w.log

/-- The texts that were added since the log position that a wait returned last. -/
def since (w : World Thread Shared Command Text Text) : List Text :=
  (w.log.map ident).drop (mark inner w)

/-- Who looks for a text that has not been added finds no part of it since the last position. -/
def NoPart (w : World Thread Shared Command Text Text)
    (action : Monitor.Action Thread Command Text) : Prop :=
  ∀ thread text, w.looks action = some (thread, text) → ¬ Added ident text w.log →
    ∀ s ∈ since ident inner w, ¬ s <:+: text

/-- Who looks for a text that has been added finds it, or a part of it, since the last position. -/
def StillThere (w : World Thread Shared Command Text Text)
    (action : Monitor.Action Thread Command Text) : Prop :=
  ∀ thread text, w.looks action = some (thread, text) → Added ident text w.log →
    ∃ s ∈ since ident inner w, s <:+: text

end Properties

variable {m : Monitor Shared Command Text Text} {ident : Command → Text}
variable {inner : Shared → StateObserver Text} {w w' : World Thread Shared Command Text Text}
variable {action : Monitor.Action Thread Command Text}

theorem inText_iff {text s : Text} : inText text s = true ↔ s <:+: text := PyText.occursIn_iff

/-- A wait for a text can return exactly when a part of the text was added since the last position. -/
theorem serve_eq_none_iff_since (carries : Carries m inText ident inner)
    (run : m.machine.Reachable Machine.anyAction w) {text : Text} :
    m.serve text w.shared = none ↔ ∀ s ∈ since ident inner w, ¬ s <:+: text := by
  rw [carries.serve_eq_none_iff, carries.kept_eq_drop run]
  simp only [← inText_iff, Bool.not_eq_true]
  rfl

/-- A step keeps the waits sound exactly when nobody finds a part of a text that was not added. -/
theorem sound_step (carries : Carries m inText ident inner)
    (run : m.machine.Reachable Machine.anyAction w) (sound : Sound ident w)
    (fires : m.step w action = some w') : Sound ident w' ↔ NoPart ident inner w action := by
  rcases step_cases fires with ⟨thread, command, rfl, rfl⟩ |
    ⟨thread, text, s, after, looks, can, rfl⟩ | ⟨thread, text, looks, cannot, rfl⟩
  · refine iff_of_true sound ?_
    intro thread text none
    cases none
  · have found : ¬ ∀ s ∈ since ident inner w, ¬ s <:+: text := by
      rw [← serve_eq_none_iff_since carries run, can]
      simp
    have now : Sound ident (answered thread text s after w) ↔ Added ident text w.log := by
      refine ⟨fun all => all ⟨thread, text, s, w.log, w.shared, after⟩ (by simp [answered]), ?_⟩
      intro added entry inside
      rcases List.mem_append.mp inside with old | new
      · exact sound entry old
      · cases List.mem_singleton.mp new
        exact added
    rw [now]
    constructor
    · intro added thread' text' looks' absent
      cases looks.symm.trans looks'
      exact absurd added absent
    · intro noPart
      by_contra absent
      exact found (noPart thread text looks absent)
  · refine iff_of_true sound ?_
    intro thread' text' looks' _
    cases looks.symm.trans looks'
    exact (serve_eq_none_iff_since carries run).mp cannot

/-- A step leaves nobody asleep for an added text exactly when who looks for one still finds it. -/
theorem complete_step (carries : Carries m inText ident inner)
    (run : m.machine.Reachable Machine.anyAction w)
    (complete : ∀ thread text, w.place thread = .asleep text → ¬ Added ident text w.log)
    (fires : m.step w action = some w') :
    (∀ thread text, w'.place thread = .asleep text → ¬ Added ident text w'.log) ↔
      StillThere ident inner w action := by
  rcases step_cases fires with ⟨thread, command, rfl, rfl⟩ |
    ⟨thread, text, s, after, looks, can, rfl⟩ | ⟨thread, text, looks, cannot, rfl⟩
  · refine iff_of_true ?_ ?_
    · intro thread text sleeps
      exact absurd sleeps (Place.wake_ne_asleep _ _)
    · intro thread text none
      cases none
  · refine iff_of_true ?_ ?_
    · intro sleeper other sleeps
      by_cases same : sleeper = thread
      · rw [same, answered_place, Function.update_self] at sleeps
        cases sleeps
      · rw [answered_place, Function.update_of_ne same] at sleeps
        exact complete sleeper other sleeps
    · intro thread' text' looks' _
      cases looks.symm.trans looks'
      by_contra nothing
      have cannot : m.serve text w.shared = none :=
        (serve_eq_none_iff_since carries run).mpr fun s inside part => nothing ⟨s, inside, part⟩
      rw [cannot] at can
      cases can
  · have nothing : ∀ s ∈ since ident inner w, ¬ s <:+: text :=
      (serve_eq_none_iff_since carries run).mp cannot
    constructor
    · intro after thread' text' looks' added
      cases looks.symm.trans looks'
      refine absurd added (after thread text ?_)
      rw [slept_place, Function.update_self]
    · intro there sleeper other sleeps
      by_cases same : sleeper = thread
      · rw [same, slept_place, Function.update_self] at sleeps
        cases sleeps
        intro added
        obtain ⟨s, inside, part⟩ := there thread text looks added
        exact nothing s inside part
      · rw [slept_place, Function.update_of_ne same] at sleeps
        exact complete sleeper other sleeps

theorem exact_step (carries : Carries m inText ident inner)
    (run : m.machine.Reachable Machine.anyAction w) (holds : Exact ident w)
    (fires : m.step w action = some w') :
    Exact ident w' ↔ NoPart ident inner w action ∧ StillThere ident inner w action := by
  rw [← sound_step carries run holds.sound fires,
    ← complete_step carries run holds.complete fires]
  exact ⟨fun after => ⟨after.sound, after.complete⟩, fun after => ⟨after.1, after.2⟩⟩

/-- Where the waits stay exact, who looks for a text that has been added returns. -/
theorem Exact.returns {thread : Thread} {text : Text} (after : Exact ident w')
    (looks : w.looks action = some (thread, text)) (added : Added ident text w.log)
    (fires : m.step w action = some w') : ∃ s left, w' = answered thread text s left w := by
  rcases step_cases fires with ⟨_, _, rfl, rfl⟩ | ⟨_, _, s, left, looks', -, rfl⟩ |
    ⟨_, _, looks', -, rfl⟩
  · cases looks
  · cases looks.symm.trans looks'
    exact ⟨s, left, rfl⟩
  · cases looks.symm.trans looks'
    refine absurd added (after.complete thread text ?_)
    rw [slept_place, Function.update_self]

omit [DecidableEq Thread] in
/-- Where the waits are exact, who waits for a text that has been added has a notification. -/
theorem Exact.notified {thread : Thread} {text : Text} (holds : Exact ident w)
    (waits : w.place thread = .asleep text ∨ w.place thread = .notified text)
    (added : Added ident text w.log) : w.looks (.resume thread) = some (thread, text) := by
  rcases waits with asleep | notified
  · exact absurd added (holds.complete thread text asleep)
  · simp only [World.looks, notified]

/-- An action that is not enabled has nobody looking. -/
theorem looks_of_disabled (disabled : m.step w action = none) : w.looks action = none := by
  cases looks : w.looks action with
  | none => rfl
  | some found =>
      rw [looks_step looks] at disabled
      cases disabled

theorem reachable_step (run : m.machine.Reachable Machine.anyAction w)
    (fires : m.step w action = some w') : m.machine.Reachable Machine.anyAction w' :=
  run.step True.intro fires

/-- The waits stay sound throughout exactly the runs in which nobody finds a mere part. -/
theorem sound_throughout_iff (carries : Carries m inText ident inner)
    (actions : List (Monitor.Action Thread Command Text)) :
    m.machine.Throughout (Sound ident) m.machine.init actions ↔
      m.machine.Along (NoPart ident inner) m.machine.init actions := by
  refine Machine.throughout_iff_along (m.machine.Reachable Machine.anyAction)
    (fun _ _ _ run fires => reachable_step run fires)
    (fun _ _ _ run sound fires => sound_step carries run sound fires) ?_ actions .refl
    (by simp [Sound, machine])
  intro w action disabled thread text looks
  rw [looks_of_disabled disabled] at looks
  cases looks

theorem exact_throughout_iff (carries : Carries m inText ident inner)
    (actions : List (Monitor.Action Thread Command Text)) :
    m.machine.Throughout (Exact ident) m.machine.init actions ↔
      m.machine.Along (fun w action => NoPart ident inner w action ∧ StillThere ident inner w action)
        m.machine.init actions := by
  refine Machine.throughout_iff_along (m.machine.Reachable Machine.anyAction)
    (fun _ _ _ run fires => reachable_step run fires)
    (fun _ _ _ run holds fires => exact_step carries run holds fires) ?_ actions .refl
    ⟨by simp [Sound, machine], by simp [machine]⟩
  intro w action disabled
  constructor <;> intro thread text looks <;> rw [looks_of_disabled disabled] at looks <;>
    cases looks

/-! ## One text only -/

/-- Every call is about the one text. -/
def OnlyAbout (ident : Command → Text) (text : Text)
    (_ : World Thread Shared Command Text Text) : Monitor.Action Thread Command Text → Prop
  | .perform _ command => ident command = text
  | .request _ request => request = text
  | .resume _ => True

/-- The log, the waiting threads and the served requests are about the one text. -/
structure About (ident : Command → Text) (text : Text)
    (w : World Thread Shared Command Text Text) : Prop where
  log : ∀ s ∈ w.log.map ident, s = text
  place : ∀ thread, w.place thread = .outside ∨ w.place thread = .asleep text ∨
    w.place thread = .notified text
  served : ∀ entry ∈ w.served, entry.request = text

omit [DecidableEq Thread] in
theorem About.looks {text other : Text} {thread : Thread} (about : About ident text w)
    (permitted : OnlyAbout ident text w action) (looks : w.looks action = some (thread, other)) :
    other = text := by
  cases action with
  | perform _ _ => cases looks
  | request asker request =>
      simp only [World.looks] at looks
      split at looks
      · cases looks
        exact permitted
      · cases looks
  | resume sleeper =>
      simp only [World.looks] at looks
      split at looks
      · next place =>
          cases looks
          rcases about.place thread with outside | asleep | notified
          · cases place.symm.trans outside
          · cases place.symm.trans asleep
          · cases place.symm.trans notified
            rfl
      · cases looks

theorem about_reachable {text : Text} (run : m.machine.Reachable (OnlyAbout ident text) w) :
    About ident text w := by
  refine run.invariant (P := About ident text)
    ⟨by simp [machine], fun _ => .inl rfl, by simp [machine]⟩ ?_
  intro w action w' about permitted fires
  rcases step_cases fires with ⟨_, command, rfl, rfl⟩ | ⟨thread, request, s, after, looks, -, rfl⟩ |
    ⟨thread, request, looks, -, rfl⟩
  · refine ⟨?_, ?_, about.served⟩
    · intro s inside
      rw [performed, List.map_append] at inside
      rcases List.mem_append.mp inside with old | new
      · exact about.log s old
      · exact (List.mem_singleton.mp new).trans permitted
    · intro thread
      rw [performed_place]
      rcases about.place thread with place | place | place <;> simp [place, Place.wake]
  · have same : request = text := about.looks permitted looks
    refine ⟨about.log, ?_, ?_⟩
    · intro other
      rw [answered_place]
      by_cases here : other = thread
      · exact .inl (by rw [here, Function.update_self])
      · rw [Function.update_of_ne here]
        exact about.place other
    · intro entry inside
      rcases List.mem_append.mp inside with old | new
      · exact about.served entry old
      · cases List.mem_singleton.mp new
        exact same
  · have same : request = text := about.looks permitted looks
    refine ⟨about.log, ?_, about.served⟩
    intro other
    rw [slept_place]
    by_cases here : other = thread
    · exact .inr (.inl (by rw [here, Function.update_self, same]))
    · rw [Function.update_of_ne here]
      exact about.place other

/-- While something has been passed to the observer, something is kept. -/
theorem kept_nonempty (carries : Carries m inText ident inner) :
    m.Kept fun log shared => (inner shared).previousStates = [] → log = [] where
  start _ := rfl
  perform log shared command _ := by
    intro empty
    rw [carries.perform, StateObserver.update] at empty
    cases List.append_eq_nil_iff.mp empty |>.2
  serve log shared request s after _ can := by
    intro empty
    obtain ⟨_, rest, -, left, -, -⟩ := carries.serve_eq_some can
    cases left.symm.trans empty

/-- The waits of the scenarios, which only know one text, are exact. -/
theorem exact_of_one_text (carries : Carries m inText ident inner) {text : Text}
    (run : m.machine.Reachable (OnlyAbout ident text) w) : Exact ident w := by
  have about : About ident text w := about_reachable run
  constructor
  · intro entry inside
    obtain ⟨suffix, can⟩ := carries.kept.served run entry inside
    obtain ⟨passed, rest, kept, -, -, -⟩ := carries.serve_eq_some can
    have logged : entry.answer ∈ entry.log.map ident :=
      suffix.subset (kept ▸ List.mem_append_right _ List.mem_cons_self)
    have later : entry.answer ∈ w.log.map ident :=
      ((served_earlier run entry inside).map ident).subset logged
    rw [Added, about.served entry inside, ← about.log _ later]
    exact logged
  · intro thread request sleeps added
    have same : request = text := about.log request added
    have cannot := carries.quiet.asleep run thread request sleeps
    rw [carries.serve_eq_none_iff] at cannot
    cases kept : (inner w.shared).previousStates with
    | nil =>
        rw [Added, (kept_nonempty carries).reachable run kept] at added
        cases added
    | cons s rest =>
        have inside : s ∈ (inner w.shared).previousStates := kept ▸ List.mem_cons_self
        have here : s = text := about.log s ((carries.kept.reachable run).subset inside)
        have other : inText request s = false := cannot s inside
        rw [here, same] at other
        rw [inText_iff.mpr List.infix_rfl] at other
        cases other

end Waits

/-! ## The channels that are found -/

theorem channels_added :
    channels.Kept fun log shared => shared.dataChannels = log where
  start := rfl
  perform log shared channel added := congrArg (· ++ [channel]) added
  serve log shared ident s after added can := by
    simp only [channels, WebRTCObserver.waitForDataChannel, Option.map_eq_some_iff] at can
    obtain ⟨found, -, same⟩ := can
    cases same
    exact added

/-- Where the waits are sound, a channel that was waited for can be found. -/
theorem findChannel_of_sound {Thread : Type} [DecidableEq Thread]
    {w : World Thread WebRTCObserver DataChannel Text Text}
    (run : channels.machine.Reachable Machine.anyAction w) (sound : Sound DataChannel.ident w) :
    ∀ entry ∈ w.served, ∃ channel, w.shared.findChannel entry.request = some channel := by
  intro entry inside
  obtain ⟨channel, added, same⟩ := List.mem_map.mp (sound entry inside)
  have listed : channel ∈ w.shared.dataChannels := by
    rw [channels_added.reachable run]
    exact (served_earlier run entry inside).subset added
  refine Option.isSome_iff_exists.mp ?_
  rw [WebRTCObserver.findChannel, List.find?_isSome]
  exact ⟨channel, listed, decide_eq_true same⟩

/-! ## The waits of the observers -/

/--
The waits for channels are exact throughout exactly the runs in which every look
for a text finds a part of it, among the idents added since the last returned
position, when and only when the text has been added; the waits for messages
are sound throughout exactly the runs in which no look for a text that was not
received finds a part of it.
-/
theorem waits_exact_iff {Thread : Type} [DecidableEq Thread] :
    (∀ actions : List (Monitor.Action Thread DataChannel Text),
      channels.machine.Throughout (Exact DataChannel.ident) channels.machine.init actions ↔
        channels.machine.Along (fun w action =>
          NoPart DataChannel.ident WebRTCObserver.dataChannelsObserver w action ∧
            StillThere DataChannel.ident WebRTCObserver.dataChannelsObserver w action)
          channels.machine.init actions) ∧
    (∀ actions : List (Monitor.Action Thread Text Text),
      messages.machine.Throughout (Sound id) messages.machine.init actions ↔
        messages.machine.Along (NoPart id id) messages.machine.init actions) :=
  ⟨exact_throughout_iff channels_carries, sound_throughout_iff messages_carries⟩

/--
The channel `data2` is found when only `data` was added, the channel `chat` is not
found once `data` was waited for, and an empty message ends the wait for any other.
-/
theorem similar_idents_confused :
    (∃ w, channels.machine.exec channels.machine.init
        ([.perform true ⟨"data".toList, "remote".toList⟩, .request false "data2".toList] :
          List (Monitor.Action Bool DataChannel Text)) = some w ∧
      w.served.map (fun entry => (entry.request, entry.log.map DataChannel.ident)) =
        [("data2".toList, ["data".toList])] ∧ ¬ Exact DataChannel.ident w) ∧
    (∃ w, channels.machine.exec channels.machine.init
        ([.perform true ⟨"chat".toList, "remote".toList⟩,
          .perform true ⟨"data".toList, "remote".toList⟩, .request false "data".toList,
          .request false "chat".toList] : List (Monitor.Action Bool DataChannel Text)) = some w ∧
      w.place false = .asleep "chat".toList ∧
        w.log.map DataChannel.ident = ["chat".toList, "data".toList] ∧
        ¬ Exact DataChannel.ident w) ∧
    (∃ w, messages.machine.exec messages.machine.init
        ([.perform true [], .request false "some data".toList] :
          List (Monitor.Action Bool Text Text)) = some w ∧
      w.served.map (fun entry => (entry.request, entry.log)) = [("some data".toList, [[]])] ∧
      ¬ Sound id w) := by
  refine ⟨⟨_, rfl, by decide, ?_⟩, ⟨_, rfl, by decide, by decide, ?_⟩, ⟨_, rfl, by decide, ?_⟩⟩
  · intro holds
    exact absurd holds.sound (by decide)
  · intro holds
    exact holds.complete false _ rfl (by decide)
  · decide

end GstWebrtc.Check
