import CallAtlas.Layout.Mode
import CallAtlas.View.Palette

/-!
The command line.

An option is written `--name value` or `--name=value`, each at most once, and `--` ends the options. Words are read
from left to right. A value that stands apart from its option is judged when the next option or the end is reached,
so an unknown word right behind it is reported first.
-/

namespace CallAtlas

set_option autoImplicit false

structure Arguments where
  /-- The path of the payload. -/
  graph : String
  /-- The path of the settings. -/
  config : Option String
  layout : LayoutMode
  /-- The metric that nodes are colored by. -/
  metric : String
  /-- The root of the hierarchical and the radial layout. -/
  root : Option String
deriving DecidableEq

namespace Arguments

inductive OptionName where
  | graph
  | config
  | layout
  | metric
  | root
deriving DecidableEq

def OptionName.text : OptionName → String
  | .graph => "graph"
  | .config => "config"
  | .layout => "layout"
  | .metric => "metric"
  | .root => "root"

def OptionName.all : List OptionName := [.graph, .config, .layout, .metric, .root]

def OptionName.ofText? (text : String) : Option OptionName := all.find? (·.text = text)

/-- What an option takes: a path that is not empty, the label of a layout, or any text. -/
def OptionName.accepts (value : String) : OptionName → Bool
  | .graph | .config => value ≠ ""
  | .layout => (LayoutMode.ofLabel? value).isSome
  | .metric | .root => true

/-- Why a command line is refused. -/
inductive Refusal where
  | noGraph
  | unknownWord (word : String)
  | noValue (option : OptionName)
  | badValue (option : OptionName) (value : String)
  | repeatedOption (option : OptionName)
  /-- A value given to a word that takes none. -/
  | unneededValue (word : String)
deriving DecidableEq

/-- An option as it is written, with a word for its value. -/
def OptionName.usage (option : OptionName) : String :=
  "--" ++ option.text ++ " <" ++ option.text.map Char.toUpper ++ ">"

def Refusal.message : Refusal → String
  | .noGraph => "the following required arguments were not provided:\n  " ++ OptionName.graph.usage
  | .unknownWord word => "unexpected argument '" ++ word ++ "' found"
  | .noValue option => "a value is required for '" ++ option.usage ++ "' but none was supplied"
  | .badValue option value => "invalid value '" ++ value ++ "' for '" ++ option.usage ++ "'"
  | .repeatedOption option => "the argument '" ++ option.usage ++ "' cannot be used multiple times"
  | .unneededValue word => "unexpected value in '" ++ word ++ "' found; no more were expected"

/-- What a command line asks for. -/
inductive Request where
  | start (arguments : Arguments)
  | help
  | version
deriving DecidableEq

/-! ## Words -/

inductive Word where
  | endOfOptions
  | long (name : String) (value : Option String)
  | short (letter : Char)
  | plain

/-- Splits a text at its first equals sign. -/
def splitValue (text : List Char) : String × Option String :=
  match text.span (· ≠ '=') with
  | (name, _ :: value) => (String.ofList name, some (String.ofList value))
  | (name, []) => (String.ofList name, none)

def Word.ofText (text : String) : Word :=
  match text.toList with
  | ['-', '-'] => .endOfOptions
  | '-' :: '-' :: rest =>
    let (name, value) := splitValue rest
    .long name value
  | '-' :: letter :: _ => .short letter
  | _ => .plain

/-! ## Reading -/

/-- The options read so far, and the last one with the value that stands apart from it. -/
structure Progress where
  given : List (OptionName × String)
  pending : Option (OptionName × Option String)

namespace Progress

def value? (p : Progress) (option : OptionName) : Option String := (p.given.find? (·.1 = option)).map (·.2)

/-- Enters an option with its value. -/
def enter (option : OptionName) (value : Option String) (p : Progress) : Except Refusal Progress :=
  match value with
  | none => .error (.noValue option)
  | some value =>
    if (p.value? option).isSome then .error (.repeatedOption option)
    else if option.accepts value then .ok { p with given := p.given ++ [(option, value)] }
    else .error (.badValue option value)

/-- Enters the pending option. -/
def settle (p : Progress) : Except Refusal Progress :=
  match p.pending with
  | none => .ok p
  | some (option, value) => { p with pending := none }.enter option value

/-- The request of a command line that has been read to its end. -/
def finish (p : Progress) : Except Refusal Request := do
  let p ← p.settle
  match p.value? .graph with
  | none => .error .noGraph
  | some graph =>
    .ok (.start
      { graph := graph
        config := p.value? .config
        layout := ((p.value? .layout).bind LayoutMode.ofLabel?).getD .force
        metric := (p.value? .metric).getD Palette.standardMetric
        root := p.value? .root })

/-- Reads the remaining words. -/
def read (p : Progress) : List String → Except Refusal Request
  | [] => p.finish
  | text :: rest =>
    match Word.ofText text with
    | .endOfOptions =>
      match rest with
      | [] => p.finish
      | word :: _ => .error (.unknownWord word)
    | .long name value =>
      match OptionName.ofText? name, value with
      | some option, some value => do
        let p ← p.settle
        let p ← p.enter option (some value)
        p.read rest
      | some option, none => do
        let p ← p.settle
        { p with pending := some (option, none) }.read rest
      | none, value =>
        if name = "help" ∨ name = "version" then
          if value.isSome then .error (.unneededValue text)
          else do
            let _ ← p.settle
            .ok (if name = "help" then .help else .version)
        else .error (.unknownWord text)
    | .short letter =>
      if letter = 'h' ∨ letter = 'V' then do
        let _ ← p.settle
        .ok (if letter = 'h' then .help else .version)
      else .error (.unknownWord text)
    | .plain =>
      match p.pending with
      | some (option, none) => { p with pending := some (option, some text) }.read rest
      | _ => .error (.unknownWord text)

end Progress

def usage : String := "Usage: callgraph-lens [OPTIONS] " ++ OptionName.graph.usage

def helpText : String :=
  String.intercalate "\n"
    ["Interactive force-directed viewer for code dependency graphs", "", usage, "", "Options:",
     "      --graph <GRAPH>    Graph payload: nodes and links, or a call-graph map keyed by function",
     "      --config <CONFIG>  JSON file overriding engine tunables",
     "      --layout <LAYOUT>  [default: force] [possible values: force, hierarchical, radial]",
     "      --metric <METRIC>  Node field used for coloring [default: complexity]",
     "      --root <ROOT>      Root node for the hierarchical and radial layouts",
     "  -h, --help             Print help",
     "  -V, --version          Print version"]

/-- The request of a command line, the name of the program left out. -/
def parse (words : List String) : Except Refusal Request := Progress.read ⟨[], none⟩ words

end Arguments

end CallAtlas
