import ScoreDesk.FileTree
import ScoreDesk.Transport.Basic

namespace ScoreDesk.Transport

def withSuffix (path : Path) (suffix : String) : Path := ⟨path.text ++ suffix⟩

def shorterFirst (a b : Path) : Bool :=
  match compare a.text.utf8ByteSize b.text.utf8ByteSize with
  | .lt => true
  | .gt => false
  | .eq => a.compare b != .gt

def hasSignature (tree : FileTree) (path : Path) : Bool :=
  match tree.read path with
  | .ok content => (Text.Utf8.encode "MThd").isPrefixOf content
  | .error _ => false

def siblings (tree : FileTree) (dir : Path) (start : String) : List Path :=
  match tree.list dir with
  | .error _ => []
  | .ok names =>
    (names.map fun name => dir.join ⟨name⟩).filter fun path =>
      tree.isFile path && start.toList.isPrefixOf path.text.toList

/-- The MIDI file that was made from a score: the one that is named as the score, else the first
    MIDI file among those whose names start like it. -/
def renditionOf (tree : FileTree) (source : Path) : Except TransportError Path :=
  let base := source.withoutExtension
  match [".midi", ".mid"].map (withSuffix base) |>.find? tree.isFile with
  | some path => .ok path
  | none =>
    match base.fileName? with
    | none => .error (.midiFileNotFound source)
    | some name =>
      let dir := base.dirOrHere
      let found := (siblings tree dir (dir.join ⟨name⟩).text).mergeSort shorterFirst
      match found.find? (hasSignature tree) with
      | some path => .ok path
      | none => .error (.midiFileNotFound source)

end ScoreDesk.Transport
