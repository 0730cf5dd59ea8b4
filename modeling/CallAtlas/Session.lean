import CallAtlas.Viewer.Frame

/-!
A session of the viewer: the first load, the graph on screen with its reloads, and failed loads with their retries.

Loads run beside the session and are numbered in the order of their start. A session waits for at most one of them.
In every frame it hears the user first, and asks then what that one has delivered.
-/

namespace CallAtlas

set_option autoImplicit false

/-- What a load has to say. -/
inductive Delivery where
  | pending
  | result (outcome : Except String GraphSpec)
  /-- The load is over and has left nothing. -/
  | lost

inductive Stage (α : Type) where
  | loading (load : Nat)
  | ready (viewer : Viewer α)
  | failed (message : String)

structure Session (α : Type) where
  startup : Startup α
  stage : Stage α
  /-- The load that is to replace the graph on screen. -/
  reload : Option Nat
  /-- The number of loads started so far, which is the number of the next one. -/
  started : Nat

/-- What the user does in one frame. -/
structure SessionInput (α : Type) where
  frame : FrameInput α
  reload : Bool
  retry : Bool

namespace Session

variable {α : Type}

/-- A session that waits for its first load. -/
def start (startup : Startup α) : Session α := ⟨startup, .loading 0, none, 1⟩

/-- The load that the session waits for. -/
def awaited (s : Session α) : Option Nat :=
  match s.stage with
  | .loading load => some load
  | .ready _ => s.reload
  | .failed _ => none

/-- Whether the session has given up until the user wants to try again. -/
def hasFailed (s : Session α) : Bool :=
  match s.stage with
  | .failed _ => true
  | _ => false

def lostMessage : String := "Background load worker disconnected"

def fail (message : String) (s : Session α) : Session α := { s with stage := .failed message, reload := none }

/-- Starts a load that replaces the graph on screen, unless one is under way. -/
def requestReload (s : Session α) : Session α :=
  if s.reload.isNone then { s with reload := some s.started, started := s.started + 1 } else s

/-- Starts over after a failure. -/
def retry (s : Session α) : Session α := { s with stage := .loading s.started, started := s.started + 1 }

variable [Scalar α]

/-- The viewer of a graph that has been loaded: the present one, if there is one, goes on with it. -/
def viewerOf (graph : GraphSpec) (s : Session α) : Viewer α :=
  match s.stage with
  | .ready viewer => viewer.replaceGraph graph
  | _ => .start s.startup graph

/-- Takes what the load has delivered that the session waits for. -/
def take (delivery : Delivery) (s : Session α) : Session α :=
  match delivery with
  | .pending => s
  | .result (.ok graph) => { s with stage := .ready (s.viewerOf graph), reload := none }
  | .result (.error message) => s.fail message
  | .lost => s.fail lostMessage

/-- The user is heard: the graph on screen has its frame, and a load may start. The canvas is hidden during a reload. -/
def hear (input : SessionInput α) (s : Session α) : Except Fault (Session α) :=
  match s.stage with
  | .loading _ => pure s
  | .failed _ => pure (if input.retry then s.retry else s)
  | .ready viewer => do
    let canvas := if s.reload.isSome then none else input.frame.canvas
    let viewer ← viewer.frame { input.frame with canvas := canvas }
    let s := { s with stage := .ready viewer }
    pure (if input.reload then s.requestReload else s)

end Session

end CallAtlas
