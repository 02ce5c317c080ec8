import Mathlib
import ScoreDesk.Proofs.Smf.TempoMap

namespace ScoreDesk.Smf

open Text (Bytes)

def tempoLimit : Nat := 16777216

def EventKind.Fits : EventKind → Prop
  | .tempo usPerBeat => usPerBeat < tempoLimit
  | _ => True

/-- Every tempo that a file sets fits three octets. -/
def File.TemposFit (f : File) : Prop :=
  ∀ change ∈ f.tempoEvents, change.usPerBeat < tempoLimit

theorem File.temposFit_of_events {f : File}
    (fits : ∀ track ∈ f.tracks, ∀ event ∈ track, event.kind.Fits) : f.TemposFit := by
  intro change member
  obtain ⟨track, inFile, inTrack⟩ := List.mem_flatMap.mp member
  obtain ⟨⟨tick, ⟨delta, kind⟩⟩, placing, same⟩ := List.mem_filterMap.mp inTrack
  obtain ⟨i, bound, entry⟩ := List.mem_mapIdx.mp placing
  have fit := fits track inFile track[i] (List.getElem_mem bound)
  rw [(Prod.mk.inj entry).2] at fit
  cases kind with
  | tempo usPerBeat =>
    cases same
    exact fit
  | channel message => cases same
  | other => cases same

section Reading

variable {bytes rest : Bytes} {kind : EventKind}

theorem bigEndian_lt (bytes : Bytes) : bigEndian bytes < 256 ^ bytes.length := by
  induction bytes using List.reverseRecOn with
  | nil => decide
  | append_singleton bytes b ih =>
    have octet := b.toNat_lt
    have number : bigEndian (bytes ++ [b]) = bigEndian bytes * 256 + b.toNat := by
      simp [bigEndian]
    rw [number, List.length_append, List.length_singleton, pow_succ]
    omega

theorem channelMessage?_fits {status : UInt8}
    (reads : channelMessage? status bytes = some (kind, rest)) : kind.Fits := by
  obtain ⟨⟨data, behind⟩, -, message⟩ := Option.bind_eq_some_iff.mp reads
  dsimp only at message
  split at message
  · cases message
    exact True.intro
  · cases message

theorem meta?_fits (reads : meta? bytes = some (kind, rest)) : kind.Fits := by
  cases bytes with
  | nil => cases reads
  | cons tag bytes =>
    dsimp only [meta?] at reads
    generalize readBlock bytes = block at reads
    obtain ⟨data, behind⟩ := block
    have three : bigEndian (data.take 3) < tempoLimit := by
      have octets := bigEndian_lt (data.take 3)
      have size : 256 ^ (data.take 3).length ≤ 256 ^ 3 :=
        Nat.pow_le_pow_right (by decide) (by simp)
      unfold tempoLimit
      omega
    dsimp only at reads
    split_ifs at reads <;> cases reads <;> first | exact three | exact True.intro

theorem eventKind?_fits {running after : Option UInt8}
    (reads : eventKind? running bytes = some (kind, after, rest)) : kind.Fits := by
  cases bytes with
  | nil => cases reads
  | cons b bytes =>
    simp only [eventKind?] at reads
    split_ifs at reads
    · obtain ⟨status, -, reads⟩ := Option.bind_eq_some_iff.mp reads
      obtain ⟨message, found, same⟩ := Option.bind_eq_some_iff.mp reads
      cases same
      exact channelMessage?_fits found
    · obtain ⟨message, found, same⟩ := Option.bind_eq_some_iff.mp reads
      cases same
      exact channelMessage?_fits found
    · obtain ⟨message, found, same⟩ := Option.bind_eq_some_iff.mp reads
      cases same
      exact meta?_fits found
    · cases reads
      exact True.intro

theorem readEvents_fits (fuel : Nat) (running : Option UInt8) (bytes : Bytes) :
    ∀ event ∈ readEvents fuel running bytes, event.kind.Fits := by
  induction fuel generalizing running bytes with
  | zero => simp [readEvents]
  | succ fuel ih =>
    intro event member
    cases bytes with
    | nil => simp [readEvents] at member
    | cons b bytes =>
      simp only [readEvents] at member
      split at member
      · cases member
      · rename_i reads
        rcases List.mem_cons.mp member with rfl | member
        · exact eventKind?_fits reads
        · exact ih _ _ event member

theorem readChunk_fits {fuel : Nat} {events : Track}
    (reads : readChunk fuel bytes = some (some (.track events, rest))) :
    ∀ event ∈ events, event.kind.Fits := by
  induction fuel generalizing bytes with
  | zero => cases reads
  | succ fuel ih =>
    cases bytes with
    | nil => cases reads
    | cons b bytes =>
      simp only [readChunk] at reads
      obtain ⟨⟨id, behind⟩, -, reads⟩ := Option.bind_eq_some_iff.mp reads
      obtain ⟨⟨size, data⟩, -, reads⟩ := Option.bind_eq_some_iff.mp reads
      dsimp only at reads
      split_ifs at reads
      · obtain ⟨timing, -, same⟩ := Option.bind_eq_some_iff.mp reads
        cases same
      · cases reads
        exact readEvents_fits _ _ _
      · exact ih reads

theorem readTracks_fits (fuel : Nat) (bytes : Bytes) :
    ∀ track ∈ readTracks fuel bytes, ∀ event ∈ track, event.kind.Fits := by
  induction fuel generalizing bytes with
  | zero => simp [readTracks]
  | succ fuel ih =>
    intro track member
    simp only [readTracks] at member
    split at member
    · rename_i reads
      rcases List.mem_cons.mp member with rfl | member
      · exact readChunk_fits reads
      · exact ih _ track member
    · exact ih _ track member
    · cases member

end Reading

theorem File.read_temposFit {bytes : Bytes} {f : File} (reads : File.read bytes = .ok f) :
    f.TemposFit := by
  apply temposFit_of_events
  have tracks : ∃ fuel rest, f.tracks = readTracks fuel rest := by
    simp only [File.read, bind, Except.bind] at reads
    -- the chunks stand in a RIFF file, stand alone, or there are none
    split_ifs at reads
    · split at reads
      · cases reads
      · split at reads <;> cases reads
        exact ⟨_, _, rfl⟩
    · split at reads <;> cases reads
      exact ⟨_, _, rfl⟩
  obtain ⟨fuel, rest, same⟩ := tracks
  rw [same]
  exact readTracks_fits fuel rest

end ScoreDesk.Smf
