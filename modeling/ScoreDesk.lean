import ScoreDesk.Check.Schedule
import ScoreDesk.Main
import ScoreDesk.Proofs.Check.Debounce
import ScoreDesk.Proofs.Check.Jobs
import ScoreDesk.Proofs.Check.LeftFiles
import ScoreDesk.Proofs.Check.ShownVerdict
import ScoreDesk.Proofs.CommandLine.CheckVerdict
import ScoreDesk.Proofs.Compile.EchoedMessages
import ScoreDesk.Proofs.Compile.LiveRun
import ScoreDesk.Proofs.Compile.NamedTarget
import ScoreDesk.Proofs.FileChanges
import ScoreDesk.Proofs.FilePlaces
import ScoreDesk.Proofs.Interactive.Endings
import ScoreDesk.Proofs.Interactive.NewsToCome
import ScoreDesk.Proofs.Interactive.ScheduledTurns
import ScoreDesk.Proofs.Interactive.Turns
import ScoreDesk.Proofs.Keyboard.ChordGroups
import ScoreDesk.Proofs.Keyboard.DetachedNotes
import ScoreDesk.Proofs.Keyboard.QueuedEvents
import ScoreDesk.Proofs.Keyboard.SessionNotes
import ScoreDesk.Proofs.Keyboard.SharedNotes
import ScoreDesk.Proofs.NoteNames
import ScoreDesk.Proofs.NoteReading
import ScoreDesk.Proofs.PathOrder
import ScoreDesk.Proofs.PathParts
import ScoreDesk.Proofs.Report.BoardContents
import ScoreDesk.Proofs.Report.GroupedMessages
import ScoreDesk.Proofs.Report.IncludeDirective
import ScoreDesk.Proofs.Report.LosslessGroups
import ScoreDesk.Proofs.Report.OwnFile
import ScoreDesk.Proofs.Report.Placement
import ScoreDesk.Proofs.Report.PrintedMessage
import ScoreDesk.Proofs.Report.StructuredGrammar
import ScoreDesk.Proofs.Runs
import ScoreDesk.Proofs.Settings.LayeredLoading
import ScoreDesk.Proofs.Settings.RoundTrip
import ScoreDesk.Proofs.Settings.VariableAsFile
import ScoreDesk.Proofs.Settings.VariableOrder
import ScoreDesk.Proofs.Smf.ExactTime
import ScoreDesk.Proofs.Smf.ReadTempos
import ScoreDesk.Proofs.Smf.TempoLayout
import ScoreDesk.Proofs.Smf.TempoMap
import ScoreDesk.Proofs.Smf.TickTime
import ScoreDesk.Proofs.Smf.TimelineOrder
import ScoreDesk.Proofs.SortedList
import ScoreDesk.Proofs.Text.Octets
import ScoreDesk.Proofs.Text.Scan
import ScoreDesk.Proofs.Toml.DistinctKeys
import ScoreDesk.Proofs.Toml.Statements
import ScoreDesk.Proofs.Transport.DeckInvariants
import ScoreDesk.Proofs.Transport.DeclaredEnd
import ScoreDesk.Proofs.Transport.Delivery
import ScoreDesk.Proofs.Transport.EndNoticed
import ScoreDesk.Proofs.Transport.EngineHeld
import ScoreDesk.Proofs.Transport.EngineSessions
import ScoreDesk.Proofs.Transport.FailedOperations
import ScoreDesk.Proofs.Transport.HeldPlayer
import ScoreDesk.Proofs.Transport.LateLooks
import ScoreDesk.Proofs.Transport.NearestRendition
import ScoreDesk.Proofs.Transport.PausedAtEnd
import ScoreDesk.Proofs.Transport.PlayerMoves
import ScoreDesk.Proofs.Transport.Playthrough
import ScoreDesk.Proofs.Transport.Programme
import ScoreDesk.Proofs.Transport.RunningTime
import ScoreDesk.Proofs.Transport.ScheduledTurns
import ScoreDesk.Proofs.Transport.ShownTotal
import ScoreDesk.Proofs.Transport.Silence
import ScoreDesk.Proofs.Transport.Standstill
import ScoreDesk.Proofs.Transport.StartTime
import ScoreDesk.Proofs.Transport.StudioSilence
import ScoreDesk.Proofs.Transport.WrittenTime
import ScoreDesk.Transport.Script
