import Mathlib
import ScoreDesk.Proofs.Smf.TickTime
import ScoreDesk.Proofs.SortedList
import ScoreDesk.Smf.Timeline

namespace ScoreDesk.Smf

open Text (Bytes)

/-- The tick of an event: what all deltas of its track up to its own add up to. -/
def tickAt (track : Track) (i : Nat) : Nat :=
  ((track.take (i + 1)).map Event.delta).sum

def placed (track : Track) : List (Nat × Event) :=
  track.mapIdx fun i event => (tickAt track i, event)

def placedMessage? : Nat × Event → Option (Nat × Bytes)
  | (tick, ⟨_, .channel message⟩) => some (tick, message)
  | _ => none

theorem placed_cons (event : Event) (rest : Track) :
    placed (event :: rest) = (event.delta, event) ::
      (placed rest).map fun (tick, later) => (event.delta + tick, later) := by
  apply List.ext_getElem
  · simp [placed]
  · intro i bound _
    cases i with
    | zero => simp [placed, tickAt]
    | succ i => simp [placed, tickAt]

theorem absoluteFrom_placed (start : Nat) (track : Track) :
    absoluteFrom start track =
      (placed track).map fun (tick, event) => (start + tick, event.kind) := by
  induction track generalizing start with
  | nil => rfl
  | cons event rest ih =>
    rw [absoluteFrom, ih, placed_cons]
    simp [Nat.add_assoc]

theorem absolute_placed (track : Track) :
    absolute track = (placed track).map fun (tick, event) => (tick, event.kind) := by
  unfold absolute
  rw [absoluteFrom_placed]
  simp

theorem mem_absolute_iff {track : Track} {tick : Nat} {kind : EventKind} :
    (tick, kind) ∈ absolute track ↔
      ∃ i, ∃ bound : i < track.length, tickAt track i = tick ∧ track[i].kind = kind := by
  rw [absolute_placed]
  constructor
  · intro member
    obtain ⟨⟨_, event⟩, entry, same⟩ := List.mem_map.mp member
    obtain ⟨i, bound, placing⟩ := List.mem_mapIdx.mp entry
    cases placing
    cases same
    exact ⟨i, bound, rfl, rfl⟩
  · rintro ⟨i, bound, rfl, rfl⟩
    exact List.mem_map.mpr ⟨(tickAt track i, track[i]), List.mem_mapIdx.mpr ⟨i, bound, rfl⟩, rfl⟩

namespace File

def channelMessages (f : File) : List (Nat × Bytes) :=
  f.tracks.flatMap fun track => (placed track).filterMap placedMessage?

structure IsLastTick (f : File) (last : Nat) : Prop where
  upper : ∀ track ∈ f.tracks, ∀ i < track.length, tickAt track i ≤ last
  reached : last = 0 ∨ ∃ track ∈ f.tracks, ∃ i < track.length, tickAt track i = last

theorem filterMap_events {α : Type} (select : Nat × EventKind → Option α) (f : File) :
    f.events.filterMap select = f.tracks.flatMap fun track =>
      (placed track).filterMap fun (tick, event) => select (tick, event.kind) := by
  unfold events
  rw [List.filterMap_flatMap]
  congr 1
  funext track
  rw [absolute_placed, List.filterMap_map]
  rfl

theorem channelMessages_eq (f : File) :
    f.events.filterMap channelMessageAt? = f.channelMessages := by
  rw [filterMap_events]
  unfold channelMessages
  congr 1
  funext track
  congr 1
  funext ⟨tick, delta, kind⟩
  cases kind <;> rfl

theorem mem_events {f : File} {tick : Nat} {kind : EventKind} (member : (tick, kind) ∈ f.events) :
    ∃ track ∈ f.tracks, ∃ i < track.length, tickAt track i = tick := by
  obtain ⟨track, inFile, inTrack⟩ := List.mem_flatMap.mp member
  obtain ⟨i, bound, place, -⟩ := mem_absolute_iff.mp inTrack
  exact ⟨track, inFile, i, bound, place⟩

theorem tickAt_mem_events {f : File} {track : Track} (inFile : track ∈ f.tracks) {i : Nat}
    (bound : i < track.length) : ∃ kind, (tickAt track i, kind) ∈ f.events :=
  ⟨track[i].kind, List.mem_flatMap.mpr ⟨track, inFile, mem_absolute_iff.mpr ⟨i, bound, rfl, rfl⟩⟩⟩

theorem foldl_max_bounds (events : List (Nat × EventKind)) (start : Nat) :
    let last := events.foldl (fun tick event => max tick event.1) start
    start ≤ last ∧ (∀ event ∈ events, event.1 ≤ last) ∧
      (last = start ∨ ∃ event ∈ events, event.1 = last) := by
  induction events generalizing start with
  | nil => simp
  | cons event rest ih =>
    obtain ⟨above, upper, reached⟩ := ih (max start event.1)
    refine ⟨by simp only [List.foldl_cons]; omega, ?_, ?_⟩
    · intro other member
      rcases List.mem_cons.mp member with rfl | member
      · simp only [List.foldl_cons]
        omega
      · exact upper other member
    · rcases reached with same | ⟨other, member, same⟩
      · by_cases larger : start ≤ event.1
        · right
          refine ⟨event, by simp, ?_⟩
          simp only [List.foldl_cons]
          omega
        · left
          simp only [List.foldl_cons]
          omega
      · exact .inr ⟨other, List.mem_cons_of_mem _ member, same⟩

theorem lastTick_isLastTick (f : File) : f.IsLastTick f.lastTick := by
  obtain ⟨-, upper, reached⟩ := foldl_max_bounds f.events 0
  constructor
  · intro track inFile i bound
    obtain ⟨kind, member⟩ := tickAt_mem_events inFile bound
    exact upper _ member
  · rcases reached with same | ⟨⟨tick, kind⟩, member, same⟩
    · exact .inl same
    · obtain ⟨track, inFile, i, bound, place⟩ := mem_events member
      exact .inr ⟨track, inFile, i, bound, place.trans same⟩

theorem lastTick_le_lastTick {f g : File}
    (covered : ∀ event ∈ f.events, ∃ other ∈ g.events, event.1 ≤ other.1) :
    f.lastTick ≤ g.lastTick := by
  obtain ⟨-, -, reached⟩ := foldl_max_bounds f.events 0
  obtain ⟨-, upper, -⟩ := foldl_max_bounds g.events 0
  rcases reached with none | ⟨event, member, same⟩
  · exact Nat.le_trans (Nat.le_of_eq none) (Nat.zero_le _)
  · obtain ⟨other, inside, later⟩ := covered event member
    calc f.lastTick = event.1 := same.symm
      _ ≤ other.1 := later
      _ ≤ g.lastTick := upper other inside

theorem channelMessage_tick_le (f : File) (message : Nat × Bytes)
    (member : message ∈ f.channelMessages) : message.1 ≤ f.lastTick := by
  rw [← channelMessages_eq] at member
  obtain ⟨⟨tick, kind⟩, inside, same⟩ := List.mem_filterMap.mp member
  obtain ⟨-, upper, -⟩ := foldl_max_bounds f.events 0
  cases kind with
  | channel bytes =>
    cases same
    exact upper _ inside
  | tempo usPerBeat => cases same
  | other => cases same

end File

namespace Timeline

def Ordered (t : Timeline) : Prop :=
  t.messages.Pairwise fun a b => a.atMs ≤ b.atMs

theorem Ordered.lt_before {t : Timeline} (ordered : t.Ordered) (ms : Nat) :
    t.messages.Pairwise fun a b => decide (b.atMs < ms) → decide (a.atMs < ms) := by
  refine ordered.imp fun {a b} h => ?_
  simp only [decide_eq_true_eq]
  omega

theorem Ordered.indexAt_count {t : Timeline} (ordered : t.Ordered) (ms : Nat) :
    t.indexAt ms = t.messages.countP (·.atMs < ms) := by
  unfold indexAt
  rw [takeWhile_eq_filter (ordered.lt_before ms), List.countP_eq_length_filter]

theorem Ordered.drop_indexAt {t : Timeline} (ordered : t.Ordered) (ms : Nat) :
    t.messages.drop (t.indexAt ms) = t.messages.filter (ms ≤ ·.atMs) := by
  unfold indexAt
  rw [drop_length_takeWhile, dropWhile_eq_filter_not (ordered.lt_before ms)]
  congr 1
  funext message
  rw [← decide_not]
  simp

theorem ofFile_messages (f : File) :
    (ofFile f).messages = (f.channelMessages.mergeSort fun a b => a.1 ≤ b.1).map
      fun (tick, bytes) => ⟨f.timeBase.tickToMs tick, bytes⟩ := by
  rw [← File.channelMessages_eq]
  rfl

theorem ofFile_ordered (f : File) : (ofFile f).Ordered := by
  have sorted := mergeSort_isStableSort Prod.fst f.channelMessages
  unfold Ordered
  rw [ofFile_messages, List.pairwise_map]
  exact sorted.ascending.imp fun h => f.tickToMs_mono h

theorem atMs_le_durationMs (f : File) :
    ∀ message ∈ (ofFile f).messages, message.atMs ≤ (ofFile f).durationMs := by
  have sorted := mergeSort_isStableSort Prod.fst f.channelMessages
  intro message member
  rw [ofFile_messages] at member
  obtain ⟨⟨tick, bytes⟩, inside, rfl⟩ := List.mem_map.mp member
  apply f.tickToMs_mono
  exact f.channelMessage_tick_le _ ((sorted.mem_iff _).mp inside)

/-- A timeline holds every channel message of its file once, by tick and then as in the file, at
    ascending times that end with the file; a time has the index of the messages before it. -/
theorem ofFile_complete_in_order (f : File) :
    let t := ofFile f
    (∃ sorted, (∀ l, IsStableSort Prod.fst f.channelMessages l ↔ l = sorted) ∧
      t.messages = sorted.map fun (tick, bytes) => ⟨f.timeBase.tickToMs tick, bytes⟩) ∧
    t.messages.Pairwise (fun a b => a.atMs ≤ b.atMs) ∧
    (∀ message ∈ t.messages, message.atMs ≤ t.durationMs) ∧
    (∃ last, f.IsLastTick last ∧ t.durationMs = f.timeBase.tickToMs last) ∧
    ∀ ms, t.indexAt ms = t.messages.countP (·.atMs < ms) ∧
      ∀ i, ∀ bound : i < t.messages.length, t.messages[i].atMs < ms ↔ i < t.indexAt ms := by
  intro t
  have ordered : t.Ordered := ofFile_ordered f
  have sorted := mergeSort_isStableSort Prod.fst f.channelMessages
  refine ⟨⟨_, fun l => ⟨fun other => other.unique sorted, fun same => same ▸ sorted⟩,
    ofFile_messages f⟩, ordered, atMs_le_durationMs f, ⟨f.lastTick, f.lastTick_isLastTick, rfl⟩,
    fun ms => ⟨ordered.indexAt_count ms, fun i bound => ?_⟩⟩
  have split := getElem_iff_lt_length_takeWhile (ordered.lt_before ms) i bound
  rwa [decide_eq_true_eq] at split

end Timeline

end ScoreDesk.Smf
