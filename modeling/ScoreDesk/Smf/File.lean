import ScoreDesk.Text.Utf8

namespace ScoreDesk.Smf

open Text (Bytes)

inductive SmfError where
  | notMidi
  | noMainChunk
  | noFormType
  | notRmid
  | noRmidData
  | badHeader
  | trackBeforeHeader
  | noHeader
  deriving DecidableEq, Repr

def SmfError.message : SmfError → String
  | notMidi => "invalid midi: not a midi file"
  | noMainChunk => "invalid midi: no main riff chunk"
  | noFormType => "invalid midi: failed to read riff formtype"
  | notRmid => "invalid midi: not an rmid riff file"
  | noRmidData => "invalid midi: no rmid data chunk"
  | badHeader => "invalid midi: invalid midi header"
  | trackBeforeHeader => "invalid midi: expected header, found track"
  | noHeader => "invalid midi: no midi header chunk"

/-- Frames of film per second; the third is 30 / 1.001. -/
inductive FrameRate where
  | fps24
  | fps25
  | fps29
  | fps30
  deriving DecidableEq, Repr

inductive Timing where
  | metrical (ticksPerBeat : Nat)
  | timecode (rate : FrameRate) (subframes : Nat)
  deriving DecidableEq, Repr

inductive EventKind where
  | channel (message : Bytes)
  | tempo (usPerBeat : Nat)
  | other
  deriving DecidableEq, Repr

structure Event where
  delta : Nat
  kind : EventKind
  deriving DecidableEq, Repr

abbrev Track := List Event

structure File where
  timing : Timing
  tracks : List Track
  deriving DecidableEq, Repr

def tag (s : String) : Bytes :=
  Text.Utf8.encode s

def bigEndian (bytes : Bytes) : Nat :=
  bytes.foldl (fun n b => n * 256 + b.toNat) 0

def littleEndian (bytes : Bytes) : Nat :=
  bigEndian bytes.reverse

def take? (n : Nat) (bytes : Bytes) : Option (Bytes × Bytes) :=
  if n ≤ bytes.length then some (bytes.take n, bytes.drop n) else none

/-- A number of 7 bits an octet, whose last octet has its top bit clear. It ends after `room` octets
    in any case, and where the octets end. -/
def variableNumber : Nat → Nat → Bytes → Nat × Bytes
  | 0, n, rest => (n, rest)
  | _, n, [] => (n, [])
  | room + 1, n, b :: rest =>
    let n := n * 128 + b.toNat % 128
    if b < 0x80 then (n, rest) else variableNumber room n rest

def readNumber (bytes : Bytes) : Nat × Bytes :=
  variableNumber 4 0 bytes

def readBlock (bytes : Bytes) : Bytes × Bytes :=
  let (n, rest) := readNumber bytes
  (rest.take n, rest.drop n)

def dataCount (status : UInt8) : Nat :=
  if status &&& 0xf0 == 0xc0 || status &&& 0xf0 == 0xd0 then 1 else 2

def channelMessage? (status : UInt8) (bytes : Bytes) : Option (EventKind × Bytes) := do
  let (data, rest) ← take? (dataCount status) bytes
  if data.all (· < 0x80) then some (.channel (status :: data), rest) else none

def reelFrames (hour : UInt8) : Nat :=
  match hour.toNat / 32 % 4 with
  | 0 => 24
  | 1 => 25
  | 2 => 29
  | _ => 30

def isReelStart : Bytes → Bool
  | hour :: minute :: second :: frame :: subframe :: _ =>
    decide (hour.toNat % 32 < 24) && decide (minute < 60) && decide (second < 60) &&
      decide (frame.toNat < reelFrames hour) && decide (subframe < 100)
  | _ => true

def meta? : Bytes → Option (EventKind × Bytes)
  | [] => none
  | kind :: bytes =>
    let (data, rest) := readBlock bytes
    if kind == 0x51 then
      if 3 ≤ data.length then some (.tempo (bigEndian (data.take 3)), rest) else some (.other, rest)
    else if kind == 0x59 then if data.length < 2 then none else some (.other, rest)
    else if kind == 0x54 then if isReelStart data then some (.other, rest) else none
    else some (.other, rest)

def eventKind? (running : Option UInt8) : Bytes → Option (EventKind × Option UInt8 × Bytes)
  | [] => none
  | b :: rest =>
    if b < 0x80 then do
      let status ← running
      let (kind, rest) ← channelMessage? status (b :: rest)
      return (kind, some status, rest)
    else if b < 0xf0 then do
      let (kind, rest) ← channelMessage? b rest
      return (kind, some b, rest)
    else if b == 0xff then do
      let (kind, rest) ← meta? rest
      return (kind, none, rest)
    else if b == 0xf0 || b == 0xf7 then
      let (_, rest) := readBlock rest
      some (.other, none, rest)
    else none

def readEvents : Nat → Option UInt8 → Bytes → Track
  | 0, _, _ => []
  | _, _, [] => []
  | fuel + 1, running, bytes =>
    let (delta, rest) := readNumber bytes
    match eventKind? running rest with
    | none => []
    | some (kind, running, rest) => ⟨delta, kind⟩ :: readEvents fuel running rest

def readTrack (bytes : Bytes) : Track :=
  readEvents bytes.length none bytes

def frameRate? (code : Nat) : Option FrameRate :=
  match code with
  | 24 => some .fps24
  | 25 => some .fps25
  | 29 => some .fps29
  | 30 => some .fps30
  | _ => none

def timing? : Bytes → Option Timing
  | format₁ :: format₀ :: _ :: _ :: high :: low :: _ =>
    if 2 < bigEndian [format₁, format₀] then none
    else if high < 0x80 then some (.metrical (bigEndian [high, low]))
    else (frameRate? (256 - high.toNat)).map (.timecode · low.toNat)
  | _ => none

inductive Chunk where
  | header (timing : Timing)
  | track (events : Track)

def readChunk : Nat → Bytes → Option (Option (Chunk × Bytes))
  | 0, _ => some none
  | _, [] => some none
  | fuel + 1, bytes => do
    let (id, rest) ← take? 4 bytes
    let (size, rest) ← take? 4 rest
    let data := rest.take (bigEndian size)
    let rest := rest.drop (bigEndian size)
    if id = tag "MThd" then return some (.header (← timing? data), rest)
    else if id = tag "MTrk" then return some (.track (readTrack data), rest)
    else readChunk fuel rest

def readTracks : Nat → Bytes → List Track
  | 0, _ => []
  | fuel + 1, bytes =>
    match readChunk bytes.length bytes with
    | some (some (.track events, rest)) => events :: readTracks fuel rest
    | some (some (.header _, rest)) => readTracks fuel rest
    | _ => []

def riffChunks : Nat → Bytes → List (Bytes × Bytes)
  | 0, _ => []
  | fuel + 1, bytes =>
    match take? 8 bytes with
    | none => []
    | some (head, rest) =>
      let size := littleEndian (head.drop 4)
      (head.take 4, rest.take size) :: riffChunks fuel (rest.drop (size + size % 2))

def unwrapRiff (bytes : Bytes) : Except SmfError Bytes :=
  match (riffChunks bytes.length bytes).lookup (tag "RIFF") with
  | none => .error .noMainChunk
  | some main =>
    match take? 4 main with
    | none => .error .noFormType
    | some (form, rest) =>
      if form ≠ tag "RMID" then .error .notRmid
      else match (riffChunks rest.length rest).lookup (tag "data") with
        | none => .error .noRmidData
        | some data => .ok data

/-- Reads a MIDI file. What cannot be read behind its header is left out. -/
def File.read (bytes : Bytes) : Except SmfError File := do
  let chunks ←
    if bytes.take 4 = tag "RIFF" then unwrapRiff bytes
    else if bytes.take 4 = tag "MThd" then .ok bytes
    else .error .notMidi
  match readChunk chunks.length chunks with
  | none => .error .badHeader
  | some none => .error .noHeader
  | some (some (.track _, _)) => .error .trackBeforeHeader
  | some (some (.header timing, rest)) => .ok ⟨timing, readTracks rest.length rest⟩

end ScoreDesk.Smf
