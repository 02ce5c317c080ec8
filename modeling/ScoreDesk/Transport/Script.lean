import ScoreDesk.Transport.Device

namespace ScoreDesk.Transport

inductive Step where
  | load
  | play
  | pause
  | stop
  | seek
  deriving DecidableEq, Repr

namespace Step

def all : List Step := [load, play, pause, stop, seek]

def word : Step → String
  | load => "load"
  | play => "play"
  | pause => "pause"
  | stop => "stop"
  | seek => "seek"

def ofWord? (text : String) : Option Step :=
  all.find? fun step => step.word == text

end Step

/-- An engine whose position is set from outside. All engines share it, and `calls` lists what was
    asked of them. -/
structure Script where
  positionMs : Nat := 0
  durationMs : Nat := 0
  ended : Bool := false
  tellsEnd : Bool := true
  failing : List Step := []
  calls : List String := []
  deriving Repr

namespace Script

def call (s : Script) (step : Step) (text : String) :
    Except TransportError Unit × Script :=
  let s := { s with calls := s.calls ++ [text] }
  if s.failing.contains step then (.error (.engine (step.word ++ " failed")), s) else (.ok (), s)

def device : Device Script Unit where
  load path s := s.call .load s!"load {path}"
  play _ s := s.call .play "play"
  pause _ s := s.call .pause "pause"
  stop _ s :=
    match s.call .stop "stop" with
    | (.ok (), s) => (.ok (), { s with positionMs := 0 })
    | failed => failed
  seek _ ms s :=
    match s.call .seek s!"seek {ms}" with
    | (.ok (), s) => (.ok (), { s with positionMs := ms })
    | failed => failed
  position _ s := (s.positionMs, s)
  duration _ s := (s.durationMs, s)
  ended _ s := (s.tellsEnd && s.ended, s)

end Script

end ScoreDesk.Transport
