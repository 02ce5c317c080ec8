import ScoreDesk.CommandLine.Arguments
import ScoreDesk.Settings.Environment
import ScoreDesk.Transport.Rendition

namespace ScoreDesk

def entriesOf (text : String) : List (String × String) :=
  (Text.splitAt '\x00' text.toList).filterMap fun entry =>
    (Text.splitOnce '=' entry).map fun (name, value) => (.ofList name, .ofList value)

/-- The home directory of an account that is listed: the third of the fields between colons is its
    number, the sixth its home. -/
def homeOf? (number : List Char) (accounts : String) : Option Path :=
  (Text.lines accounts.toList).findSome? fun line =>
    match Text.splitAt ':' line with
    | [_, _, other, _, _, home, _] => if other = number then some ⟨.ofList home⟩ else none
    | _ => none

def accountOf? (status : String) : Option (List Char) :=
  (Text.lines status.toList).findSome? fun line =>
    match Text.words line with
    | name :: number :: _ => if name = "Uid:".toList then some number else none
    | _ => none

namespace CommandLine

def Request.paths : Request → List Path
  | compile file _ => file.toList
  | check file _ _ => [file]
  | watch file => [file]
  | play file _ => [".midi", ".mid"].map (Transport.withSuffix file.withoutExtension)
  | _ => []

def pathsOf (environment : Environment) (args : List String) : List Path :=
  match parse args with
  | .error _ => []
  | .ok invocation =>
    [systemConfig, localConfig] ++ environment.userConfig?.toList ++ invocation.config.toList ++
      invocation.request.paths

def mainPath? (tree : FileTree) (environment : Environment) (args : List String) : Option Path :=
  match parse args with
  | .error _ => none
  | .ok invocation =>
    match Settings.load tree environment invocation.config with
    | .error _ => none
    | .ok (settings, sources) =>
      settings.mainFile?.map fun main =>
        (sources.workspaceRoot tree environment).join ⟨main⟩

end CommandLine

end ScoreDesk
