import CallAtlas.Session.Loads
import CallAtlas.Viewer.Screen

/-!
The window of a session: what it shows, and what a click on one of its texts does.
-/

namespace CallAtlas

set_option autoImplicit false

structure Window where
  loading : LoadingSession Float32
  widgets : Widgets
  /-- Where the canvas is. -/
  canvas : Rect Float32

namespace Window

def start (startup : Startup Float32) (canvas : Rect Float32) : Window := ⟨.start startup, .atFirst, canvas⟩

def viewer? (w : Window) : Option (Viewer Float32) :=
  match w.loading.session.stage with
  | .ready viewer => some viewer
  | _ => none

/-- The distance of the canvas from the border of the window. -/
def margin : Float32 := 8.0

/-- The items on screen in the order of drawing. -/
def items (w : Window) : List Item :=
  let session := w.loading.session
  match session.stage with
  | .loading _ => [.label "Loading call graph..."]
  | .failed message => [.label "Failed to load call graph", .label message, .button "Retry" .retry]
  | .ready viewer =>
    Screen.items viewer w.widgets session.startup.path
      (if session.reload.isSome then none else some (Picture.of w.canvas margin none viewer))

/-- One frame with a click on an item or without one. -/
def frame (clicked : Option Item) (seconds : Float32) (w : Window) : Except Fault Window := do
  let action := (clicked.map (·.action)).getD .nothing
  let input : SessionInput Float32 :=
    { frame := ⟨action.choices, some ⟨w.canvas, action.gesture w.canvas, seconds⟩, []⟩
      reload := match action with
        | .reload => true
        | _ => false
      retry := match action with
        | .retry => true
        | _ => false }
  let loading ← w.loading.frame input []
  let widgets := match clicked with
    | some item => w.widgets.click item
    | none => w.widgets
  let w := { w with loading := loading, widgets := widgets }
  pure { w with widgets := widgets.restack ((w.viewer?.map fun v => v.panels.map (·.title)).getD []) }

/-- Changes the viewer of a window that shows a graph. -/
def changeViewer (change : Viewer Float32 → Viewer Float32) (w : Window) : Window :=
  match w.loading.session.stage with
  | .ready viewer =>
    let viewer := change viewer
    { w with
      loading := { w.loading with session := { w.loading.session with stage := .ready viewer } }
      widgets := w.widgets.restack (viewer.panels.map (·.title)) }
  | _ => w

/-- Lets the load that the window waits for deliver, and runs the frame that takes it. -/
def deliver (outcome : Except String GraphSpec) (seconds : Float32) (w : Window) : Except Fault Window :=
  match w.loading.session.awaited with
  | some load => { w with loading := w.loading.finish load (.sent outcome) }.frame none seconds
  | none => pure w

end Window

end CallAtlas
