import Mathlib
import ScoreDesk.Proofs.Smf.TempoMap

namespace ScoreDesk.Smf

/-- A track without the events that leave it. The delta of one that leaves is added to that of the
    next one that stays. -/
def withoutFrom (leaves : Nat → EventKind → Bool) : (carried i : Nat) → Track → Track
  | _, _, [] => []
  | carried, i, event :: rest =>
    if leaves i event.kind then withoutFrom leaves (carried + event.delta) (i + 1) rest
    else ⟨carried + event.delta, event.kind⟩ :: withoutFrom leaves 0 (i + 1) rest

def without (leaves : Nat → EventKind → Bool) (track : Track) : Track :=
  withoutFrom leaves 0 0 track

def EventKind.isTempo : EventKind → Bool
  | .tempo _ => true
  | _ => false

/-- Any choice among the meta and exclusive events that set no tempo, but never the last event. -/
def dispensable (chosen : Nat → Bool) (track : Track) (i : Nat) (kind : EventKind) : Bool :=
  chosen i && kind = .other && i + 1 < track.length

def tempoOrDispensable (chosen : Nat → Bool) (track : Track) (i : Nat) (kind : EventKind) : Bool :=
  kind.isTempo || dispensable chosen track i kind

def tempoTrackFrom (start : Nat) : List TempoChange → Track
  | [] => []
  | change :: rest =>
    ⟨change.tick - start, .tempo change.usPerBeat⟩ :: tempoTrackFrom change.tick rest

example :
    let track : Track := [⟨3, .tempo 7⟩, ⟨4, .other⟩, ⟨5, .channel []⟩, ⟨6, .other⟩]
    without (tempoOrDispensable (fun _ => true) track) track = [⟨12, .channel []⟩, ⟨6, .other⟩] := by
  decide

namespace File

def conductor (f : File) : Track :=
  tempoTrackFrom 0 f.tempos

def tracksWithout (f : File) (leaves : Nat → Track → Nat → EventKind → Bool) : List Track :=
  f.tracks.mapIdx fun n track => without (leaves n track) track

/-- The file without some meta and exclusive events, chosen by track and place. -/
def thinned (f : File) (chosen : Nat → Nat → Bool) : File :=
  { f with tracks := f.tracksWithout fun n => dispensable (chosen n) }

/-- The file with all its tempos in a track of their own before all others, and without some meta
    and exclusive events. -/
def conducted (f : File) (chosen : Nat → Nat → Bool) : File :=
  { f with tracks := f.conductor :: f.tracksWithout fun n => tempoOrDispensable (chosen n) }

end File

section Without

variable {leaves : Nat → EventKind → Bool} {α : Type} {select : Nat × EventKind → Option α}

theorem absoluteFrom_withoutFrom_sublist (leaves : Nat → EventKind → Bool)
    (start carried i : Nat) (track : Track) :
    (absoluteFrom start (withoutFrom leaves carried i track)).Sublist
      (absoluteFrom (start + carried) track) := by
  induction track generalizing start carried i with
  | nil => exact List.Sublist.refl _
  | cons event rest ih =>
    have tick : start + (carried + event.delta) = start + carried + event.delta := by omega
    simp only [withoutFrom, absoluteFrom]
    by_cases gone : leaves i event.kind
    · rw [if_pos gone, ← tick]
      exact (ih start (carried + event.delta) (i + 1)).cons _
    · rw [if_neg gone, absoluteFrom, tick]
      exact (ih (start + carried + event.delta) 0 (i + 1)).cons_cons _

theorem filterMap_absoluteFrom_withoutFrom
    (ignored : ∀ i tick kind, leaves i kind → select (tick, kind) = none)
    (start carried i : Nat) (track : Track) :
    (absoluteFrom start (withoutFrom leaves carried i track)).filterMap select =
      (absoluteFrom (start + carried) track).filterMap select := by
  induction track generalizing start carried i with
  | nil => rfl
  | cons event rest ih =>
    have tick : start + (carried + event.delta) = start + carried + event.delta := by omega
    simp only [withoutFrom, absoluteFrom]
    by_cases gone : leaves i event.kind
    · rw [if_pos gone, ih, tick, List.filterMap_cons_none (ignored i _ _ gone)]
    · rw [if_neg gone, absoluteFrom, tick, List.filterMap_cons, List.filterMap_cons, ih]
      rfl

theorem stays_of_mem_withoutFrom {carried i : Nat} {track : Track} {event : Event}
    (member : event ∈ withoutFrom leaves carried i track) : ∃ k, leaves k event.kind = false := by
  induction track generalizing carried i with
  | nil => cases member
  | cons first rest ih =>
    simp only [withoutFrom] at member
    by_cases gone : leaves i first.kind
    · rw [if_pos gone] at member
      exact ih member
    · rw [if_neg gone] at member
      rcases List.mem_cons.mp member with rfl | member
      · exact ⟨i, by simpa using gone⟩
      · exact ih member

theorem mem_absoluteFrom_withoutFrom (start carried i : Nat) {track : Track} {j : Nat}
    (bound : j < track.length) (stays : leaves (i + j) track[j].kind = false) :
    (start + carried + tickAt track j, track[j].kind) ∈
      absoluteFrom start (withoutFrom leaves carried i track) := by
  induction track generalizing start carried i j with
  | nil => cases bound
  | cons event rest ih =>
    have first : tickAt (event :: rest) 0 = event.delta := by simp [tickAt]
    have later (k : Nat) : tickAt (event :: rest) (k + 1) = event.delta + tickAt rest k := by
      simp [tickAt]
    simp only [withoutFrom]
    cases j with
    | zero =>
      have kept : ¬ leaves i event.kind := by simpa using stays
      rw [if_neg kept, absoluteFrom, first, Nat.add_assoc]
      exact List.mem_cons_self
    | succ k =>
      have inside : k < rest.length := Nat.lt_of_succ_lt_succ bound
      have stays : leaves (i + 1 + k) rest[k].kind = false := by
        rwa [show i + 1 + k = i + (k + 1) by omega]
      rw [later, List.getElem_cons_succ]
      by_cases gone : leaves i event.kind
      · rw [if_pos gone, show start + carried + (event.delta + tickAt rest k) =
          start + (carried + event.delta) + tickAt rest k by omega]
        exact ih start (carried + event.delta) (i + 1) inside stays
      · rw [if_neg gone, absoluteFrom, show start + carried + (event.delta + tickAt rest k) =
          start + (carried + event.delta) + 0 + tickAt rest k by omega]
        exact List.mem_cons_of_mem _ (ih _ 0 (i + 1) inside stays)

end Without

theorem tickAt_mono (track : Track) {i j : Nat} (h : i ≤ j) : tickAt track i ≤ tickAt track j := by
  have before : (track.take (i + 1)).Sublist (track.take (j + 1)) :=
    (List.take_prefix_take_left (by omega)).sublist
  exact (before.map Event.delta).sum_le_sum fun _ _ => Nat.zero_le _

theorem exists_last_of_mem {track : Track} {event : Nat × EventKind}
    (member : event ∈ absolute track) :
    ∃ last, last + 1 = track.length ∧ event.1 ≤ tickAt track last := by
  obtain ⟨i, bound, place, -⟩ := mem_absolute_iff.mp member
  refine ⟨track.length - 1, by omega, ?_⟩
  rw [← place]
  exact tickAt_mono track (by omega)

theorem not_dispensable_last (chosen : Nat → Bool) {track : Track} {last : Nat}
    (ends : last + 1 = track.length) (kind : EventKind) :
    dispensable chosen track last kind = false := by
  simp [dispensable, ends]

theorem absoluteFrom_tempoTrackFrom (start : Nat) (tempos : List TempoChange)
    (ascending : tempos.Pairwise fun a b => a.tick ≤ b.tick)
    (begun : ∀ change ∈ tempos, start ≤ change.tick) :
    absoluteFrom start (tempoTrackFrom start tempos) =
      tempos.map fun change => (change.tick, .tempo change.usPerBeat) := by
  induction tempos generalizing start with
  | nil => rfl
  | cons change rest ih =>
    obtain ⟨first, later⟩ := List.pairwise_cons.mp ascending
    have tick : start + (change.tick - start) = change.tick :=
      Nat.add_sub_cancel' (begun change (by simp))
    rw [tempoTrackFrom, absoluteFrom, tick, ih change.tick later first, List.map_cons]

namespace File

theorem absolute_conductor (f : File) :
    absolute f.conductor = f.tempos.map fun change => (change.tick, .tempo change.usPerBeat) :=
  absoluteFrom_tempoTrackFrom 0 f.tempos f.tempos_isStableSort.ascending fun _ _ => Nat.zero_le _

section TracksWithout

variable {f : File} {leaves : Nat → Track → Nat → EventKind → Bool}

theorem filterMap_tracksWithout {α : Type} {select : Nat × EventKind → Option α}
    (ignored : ∀ n track i tick kind, leaves n track i kind → select (tick, kind) = none) :
    ((f.tracksWithout leaves).flatMap absolute).filterMap select = f.events.filterMap select := by
  unfold tracksWithout events
  rw [List.filterMap_flatMap, List.filterMap_flatMap, List.flatMap_def, List.flatMap_def]
  congr 1
  apply List.ext_getElem
  · simp
  · intro n _ bound
    simp only [List.getElem_map, List.getElem_mapIdx]
    exact filterMap_absoluteFrom_withoutFrom (ignored n _) 0 0 0 _

theorem mem_events_of_tracksWithout {event : Nat × EventKind}
    (member : event ∈ (f.tracksWithout leaves).flatMap absolute) : event ∈ f.events := by
  obtain ⟨_, inFile, inTrack⟩ := List.mem_flatMap.mp member
  obtain ⟨n, bound, rfl⟩ := List.mem_mapIdx.mp inFile
  have kept := (absoluteFrom_withoutFrom_sublist (leaves n f.tracks[n]) 0 0 0 _).subset inTrack
  exact List.mem_flatMap.mpr ⟨f.tracks[n], List.getElem_mem bound, kept⟩

theorem exists_last_of_events {event : Nat × EventKind} (member : event ∈ f.events) :
    ∃ n track last kind, last + 1 = track.length ∧ event.1 ≤ tickAt track last ∧
      (tickAt track last, kind) ∈ f.events ∧ (leaves n track last kind = false →
        (tickAt track last, kind) ∈ (f.tracksWithout leaves).flatMap absolute) := by
  obtain ⟨track, inFile, inTrack⟩ := List.mem_flatMap.mp member
  obtain ⟨n, bound, rfl⟩ := List.getElem_of_mem inFile
  obtain ⟨last, ends, before⟩ := exists_last_of_mem inTrack
  have inside : last < f.tracks[n].length := by omega
  refine ⟨n, f.tracks[n], last, f.tracks[n][last].kind, ends, before, ?_, fun stays => ?_⟩
  · exact List.mem_flatMap.mpr ⟨_, inFile, mem_absolute_iff.mpr ⟨last, inside, rfl, rfl⟩⟩
  · have kept := mem_absoluteFrom_withoutFrom 0 0 0 inside (by rwa [Nat.zero_add])
    simp only [Nat.zero_add] at kept
    refine List.mem_flatMap.mpr ⟨without (leaves n f.tracks[n]) f.tracks[n], ?_, kept⟩
    exact List.mem_mapIdx.mpr ⟨n, bound, rfl⟩

end TracksWithout

theorem other_of_dispensable {chosen : Nat → Bool} {track : Track} {i : Nat} {kind : EventKind}
    (gone : dispensable chosen track i kind) : kind = .other := by
  simp only [dispensable, Bool.and_eq_true, decide_eq_true_eq] at gone
  exact gone.1.2

theorem mem_tempos_of_events {f : File} {tick usPerBeat : Nat}
    (member : (tick, .tempo usPerBeat) ∈ f.events) : ⟨tick, usPerBeat⟩ ∈ f.tempos := by
  rw [f.tempos_isStableSort.mem_iff, ← tempoEvents_eq]
  exact List.mem_filterMap.mpr ⟨_, member, rfl⟩

theorem mem_events_of_tempos {f : File} {change : TempoChange} (member : change ∈ f.tempos) :
    (change.tick, .tempo change.usPerBeat) ∈ f.events := by
  rw [f.tempos_isStableSort.mem_iff, ← tempoEvents_eq] at member
  obtain ⟨⟨tick, kind⟩, inside, same⟩ := List.mem_filterMap.mp member
  cases kind with
  | tempo usPerBeat =>
    cases same
    exact inside
  | channel message => cases same
  | other => cases same

section Layout

variable (f : File) (chosen : Nat → Nat → Bool)

theorem thinned_filterMap {α : Type} {select : Nat × EventKind → Option α}
    (ignored : ∀ tick, select (tick, .other) = none) :
    (f.thinned chosen).events.filterMap select = f.events.filterMap select := by
  apply filterMap_tracksWithout
  intro n track i tick kind gone
  rw [other_of_dispensable gone, ignored]

theorem thinned_lastTick : (f.thinned chosen).lastTick = f.lastTick := by
  apply Nat.le_antisymm
  · apply lastTick_le_lastTick
    intro event member
    exact ⟨event, mem_events_of_tracksWithout member, Nat.le_refl _⟩
  · apply lastTick_le_lastTick
    intro event member
    obtain ⟨n, track, last, kind, ends, before, -, stays⟩ := exists_last_of_events member
    exact ⟨_, stays (not_dispensable_last (chosen n) ends kind), before⟩

theorem conducted_events : (f.conducted chosen).events =
    f.tempos.map (fun change => (change.tick, .tempo change.usPerBeat)) ++
      (f.tracksWithout fun n => tempoOrDispensable (chosen n)).flatMap absolute := by
  rw [← absolute_conductor]
  rfl

theorem conducted_channelMessages : (f.conducted chosen).events.filterMap channelMessageAt? =
    f.events.filterMap channelMessageAt? := by
  have silent : (f.tempos.map fun change => (change.tick,
      EventKind.tempo change.usPerBeat)).filterMap channelMessageAt? = [] := by
    simp [List.filterMap_eq_nil_iff, channelMessageAt?]
  rw [conducted_events, List.filterMap_append, silent, List.nil_append]
  apply filterMap_tracksWithout
  intro n track i tick kind gone
  rcases Bool.or_eq_true_iff.mp gone with tempo | dispensable
  · cases kind with
    | tempo usPerBeat => rfl
    | channel message => cases tempo
    | other => cases tempo
  · rw [other_of_dispensable dispensable]
    rfl

theorem conducted_tempos : (f.conducted chosen).tempos = f.tempos := by
  have moved : (f.tempos.map fun change => (change.tick,
      EventKind.tempo change.usPerBeat)).filterMap tempoChange? = f.tempos := by
    rw [List.filterMap_map]
    exact List.filterMap_some
  have left : ((f.tracksWithout fun n => tempoOrDispensable (chosen n)).flatMap
      absolute).filterMap tempoChange? = [] := by
    rw [List.filterMap_eq_nil_iff]
    rintro ⟨tick, kind⟩ member
    obtain ⟨_, inFile, inTrack⟩ := List.mem_flatMap.mp member
    obtain ⟨n, bound, rfl⟩ := List.mem_mapIdx.mp inFile
    obtain ⟨i, inside, -, rfl⟩ := mem_absolute_iff.mp inTrack
    obtain ⟨k, stays⟩ := stays_of_mem_withoutFrom (List.getElem_mem inside)
    generalize (without (tempoOrDispensable (chosen n) f.tracks[n]) f.tracks[n])[i].kind = kind
      at stays
    cases kind with
    | tempo usPerBeat => cases stays
    | channel message => rfl
    | other => rfl
  have events : (f.conducted chosen).tempoEvents = f.tempos := by
    rw [← tempoEvents_eq, conducted_events, List.filterMap_append, moved, left, List.append_nil]
  have sorted := (f.conducted chosen).tempos_isStableSort
  rw [events] at sorted
  exact sorted.eq_of_ascending f.tempos_isStableSort.ascending

theorem conducted_lastTick : (f.conducted chosen).lastTick = f.lastTick := by
  apply Nat.le_antisymm
  · apply lastTick_le_lastTick
    intro event member
    rw [conducted_events] at member
    rcases List.mem_append.mp member with tempo | kept
    · obtain ⟨change, inside, rfl⟩ := List.mem_map.mp tempo
      exact ⟨_, mem_events_of_tempos inside, Nat.le_refl _⟩
    · exact ⟨event, mem_events_of_tracksWithout kept, Nat.le_refl _⟩
  · apply lastTick_le_lastTick
    intro event member
    obtain ⟨n, track, last, kind, ends, before, inFile, stays⟩ := exists_last_of_events member
    refine ⟨(tickAt track last, kind), ?_, before⟩
    rw [conducted_events, List.mem_append]
    cases kind with
    | tempo usPerBeat =>
      exact .inl (List.mem_map.mpr ⟨_, mem_tempos_of_events inFile, rfl⟩)
    | channel message => exact .inr (stays (not_dispensable_last (chosen n) ends _))
    | other => exact .inr (stays (not_dispensable_last (chosen n) ends _))

end Layout

end File

namespace Timeline

theorem ofFile_congr {f g : File} (timing : g.timing = f.timing)
    (messages : g.events.filterMap channelMessageAt? = f.events.filterMap channelMessageAt?)
    (tempos : g.tempos = f.tempos) (last : g.lastTick = f.lastTick) : ofFile g = ofFile f := by
  have base : g.timeBase = f.timeBase := by
    unfold File.timeBase
    rw [timing, File.tempoChanges_eq, File.tempoChanges_eq, tempos]
  unfold ofFile
  rw [base, messages, last]

/-- It makes no difference to a timeline whether the tempos of its file stand in a track of their
    own or among the other events, and which of the meta and exclusive events between them it
    has. -/
theorem ofFile_ignores_layout (f : File) (chosen : Nat → Nat → Bool) :
    ofFile (f.conducted chosen) = ofFile f ∧ ofFile (f.thinned chosen) = ofFile f := by
  constructor
  · exact ofFile_congr rfl (f.conducted_channelMessages chosen) (f.conducted_tempos chosen)
      (f.conducted_lastTick chosen)
  · have tempos : (f.thinned chosen).tempos = f.tempos := by
      unfold File.tempos
      rw [← File.tempoEvents_eq, ← File.tempoEvents_eq, f.thinned_filterMap chosen fun _ => rfl]
    exact ofFile_congr rfl (f.thinned_filterMap chosen fun _ => rfl) tempos
      (f.thinned_lastTick chosen)

end Timeline

end ScoreDesk.Smf
