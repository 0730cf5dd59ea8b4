import CallAtlas.Session

/-!
A session together with the loads that run beside it.

Every load sends one result or ends without one. What it sent is there until the session takes it, and is taken at
most once. Loads and frames may follow each other in any order, and loads go on in the middle of a frame too, so that
one which a frame has started may have sent its result when the same frame asks for it.
-/

namespace CallAtlas

set_option autoImplicit false

inductive Load where
  | running
  | sent (outcome : Except String GraphSpec)
  /-- It ended without a result. -/
  | stopped

def Load.delivery : Load → Delivery
  | .running => .pending
  | .sent outcome => .result outcome
  | .stopped => .lost

structure LoadingSession (α : Type) where
  session : Session α
  /-- All loads, by their number. -/
  loads : List Load
  /-- The loads whose delivery has been taken, the latest first. -/
  taken : List Nat

/-- What a load does. -/
inductive LoadEvent where
  | send (load : Nat) (outcome : Except String GraphSpec)
  | stop (load : Nat)

inductive LoadingEvent (α : Type) where
  | load (event : LoadEvent)
  /-- A frame, and what loads do between hearing the user and asking for a delivery. -/
  | frame (input : SessionInput α) (meanwhile : List LoadEvent)

namespace LoadingSession

variable {α : Type}

def start (startup : Startup α) : LoadingSession α := ⟨.start startup, [.running], []⟩

/-- What a load has to say. Where its delivery has been taken, nothing is left. -/
def inbox (s : LoadingSession α) (load : Nat) : Delivery :=
  if s.taken.contains load then .lost else (s.loads[load]?.getD .running).delivery

/-- Ends a load that is still running. -/
def finish (load : Nat) (as : Load) (s : LoadingSession α) : LoadingSession α :=
  match s.loads[load]? with
  | some .running => { s with loads := s.loads.set load as }
  | _ => s

def work (s : LoadingSession α) : LoadEvent → LoadingSession α
  | .send load outcome => s.finish load (.sent outcome)
  | .stop load => s.finish load .stopped

variable [Scalar α]

/-- Asks the load that the session waits for, and takes what it has delivered. -/
def ask (s : LoadingSession α) : LoadingSession α :=
  match s.session.awaited with
  | none => s
  | some load =>
    match s.inbox load with
    | .pending => s
    | delivery => { s with session := s.session.take delivery, taken := load :: s.taken }

/-- A frame, with the load that it may start. A session that starts over asks from the next frame on. -/
def frame (input : SessionInput α) (meanwhile : List LoadEvent) (s : LoadingSession α) :
    Except Fault (LoadingSession α) := do
  let heard ← s.session.hear input
  let started := List.replicate (heard.started - s.session.started) Load.running
  let s' := meanwhile.foldl work { s with session := heard, loads := s.loads ++ started }
  pure (if s.session.hasFailed then s' else s'.ask)

def step (s : LoadingSession α) : LoadingEvent α → Except Fault (LoadingSession α)
  | .load event => pure (s.work event)
  | .frame input meanwhile => s.frame input meanwhile

def run (s : LoadingSession α) (events : List (LoadingEvent α)) : Except Fault (LoadingSession α) :=
  events.foldlM step s

end LoadingSession

end CallAtlas
