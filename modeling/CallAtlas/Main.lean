import CallAtlas.Arguments
import CallAtlas.Loading
import CallAtlas.Window

/-!
The command: it loads the settings and the graph, lays the graph out and prints the texts of the first screen, one
a line. Settings that cannot be loaded are replaced by the standard ones.
-/

namespace CallAtlas.Command

set_option autoImplicit false

/-- The bytes of a file, if it can be read. -/
def bytesOf (path : String) : IO (Option ByteArray) := do
  try
    return some (← IO.FS.readBinFile path)
  catch _ =>
    return none

def settingsFor (arguments : Arguments) : IO (Settings Float32) := do
  let settings ←
    match arguments.config with
    | none => pure Settings.standard
    | some path =>
      match Settings.load path (← bytesOf path) with
      | .ok settings => pure settings
      | .error e =>
        IO.eprintln (e.message ++ "; falling back to defaults")
        pure Settings.standard
  match arguments.root with
  | some root => return { settings with layout := { settings.layout with root := some root } }
  | none => return settings

/-- The canvas of a window of 1440 by 920. -/
def canvas : Rect Float32 := .ofMinSize ⟨336.0, 48.0⟩ ⟨1096.0, 864.0⟩

def start (arguments : Arguments) : IO UInt32 := do
  let startup : Startup Float32 :=
    ⟨arguments.graph, ← settingsFor arguments, arguments.layout, arguments.metric⟩
  let graph := GraphSpec.load arguments.graph (← bytesOf arguments.graph)
  match (Window.start startup canvas).deliver (graph.mapError LoadError.message) Engine.tickSeconds with
  | .ok window =>
    for item in window.items do
      IO.println item.text
    return if window.viewer?.isSome then 0 else 1
  | .error _ => return 1

def run (words : List String) : IO UInt32 := do
  match Arguments.parse words with
  | .ok (.start arguments) => start arguments
  | .ok .help =>
    IO.println Arguments.helpText
    return 0
  | .ok .version =>
    IO.println "callgraph-lens 0.1.0"
    return 0
  | .error refusal =>
    IO.eprintln ("error: " ++ refusal.message ++ "\n\n" ++ Arguments.usage)
    return 2

end CallAtlas.Command

def main (words : List String) : IO UInt32 := CallAtlas.Command.run words
