import ProxyForge.Compiler.Artifact
import ProxyForge.Compiler.Toolchain
import ProxyForge.Pragma

/-!
# Compiling in a session

A session runs a toolchain and keeps, in their order, the events of the run: what was logged, which requests were
submitted, and when the toolchain was asked for its version. The events that concern the toolchain are entered where
it is called and not by it, so they tell how it was used whatever it does. `compile` checks the expected version
against the pragmas of the sources before anything is submitted. What a step does is said by one equation for each way
to make one, `runIn_pure` to `runIn_call`.
-/

namespace ProxyForge.Compiler

/-- What happens in a session. -/
inductive Event where
  | logged (record : LogRecord)
  | submitted (request : Request)
  | askedVersion

/-- The state of a toolchain and what has happened so far. -/
structure Session (σ : Type) where
  state : σ
  events : List Event

/-- A step of a session that may fail; what has happened stays. -/
abbrev Action (σ α : Type) := ExceptT Failure (StateM (Session σ)) α

/-- A toolchain and the version that it is expected to have. -/
structure Setup (σ : Type) where
  toolchain : Toolchain σ
  expected : Option Version

namespace Action

variable {σ α : Type}

/-- Runs a step. -/
def runIn (a : Action σ α) (s : Session σ) : Except Failure α × Session σ :=
  (ExceptT.run a).run s

/-- Enters events. -/
def enter (events : List Event) : Action σ Unit :=
  modify fun s => { s with events := s.events ++ events }

/-- Logs a text. -/
def log (level : LogLevel) (text : String) : Action σ Unit :=
  enter [.logged { level, text }]

/-- Ends with a result. -/
def ofExcept (r : Except Failure α) : Action σ α :=
  ExceptT.mk (pure r)

/-- Calls the toolchain, after entering that it is called. -/
def call (event : Event) (f : σ → Reply σ α) : Action σ (Except Causes α) := do
  enter [event]
  let s ← get
  let reply := f s.state
  set { s with state := reply.state }
  enter (reply.log.map .logged)
  return reply.result

variable {β : Type}

@[simp] theorem runIn_pure (a : α) (s : Session σ) : (pure a : Action σ α).runIn s = (.ok a, s) := rfl

@[simp] theorem runIn_throw (f : Failure) (s : Session σ) : (throw f : Action σ α).runIn s = (.error f, s) := rfl

/-- A step runs in the session that the step in front of it leaves, unless that one fails. -/
@[simp] theorem runIn_bind (a : Action σ α) (f : α → Action σ β) (s : Session σ) :
    (a >>= f).runIn s = match a.runIn s with
      | (.ok v, s) => (f v).runIn s
      | (.error e, s) => (.error e, s) := by
  simp only [runIn, ExceptT.run_bind, StateT.run_bind]
  simp only [bind]
  rcases (ExceptT.run a).run s with ⟨r, s⟩
  cases r <;> rfl

@[simp] theorem runIn_enter (events : List Event) (s : Session σ) :
    (enter events).runIn s = (.ok (), { s with events := s.events ++ events }) := rfl

@[simp] theorem runIn_log (level : LogLevel) (text : String) (s : Session σ) :
    (log level text).runIn s = (.ok (), { s with events := s.events ++ [.logged { level, text }] }) := rfl

@[simp] theorem runIn_ofExcept (r : Except Failure α) (s : Session σ) : (ofExcept r).runIn s = (r, s) := rfl

/-- A call is entered before what the toolchain logs, and its state is the one that the toolchain leaves. -/
@[simp] theorem runIn_call (event : Event) (f : σ → Reply σ α) (s : Session σ) :
    (call event f).runIn s = (.ok (f s.state).result,
      { state := (f s.state).state, events := s.events ++ [event] ++ (f s.state).log.map .logged }) := rfl

end Action

/-- The log records among events. -/
def logRecords (events : List Event) : List LogRecord :=
  events.filterMap fun
    | .logged record => some record
    | _ => none

/-- The requests among events. -/
def submittedRequests (events : List Event) : List Request :=
  events.filterMap fun
    | .submitted request => some request
    | _ => none

/-- Takes the artifact of a contract out of an answer; warnings are logged first, whatever comes of it. -/
def extract {σ : Type} (r : Response) (file name : String) : Action σ Artifact := do
  let path := contractPath file name
  Action.enter <| r.warnings.map fun d => .logged { level := .warn, text := s!"`{path}` compilation: {d.text}" }
  let artifact ← Action.ofExcept (r.artifact file name)
  Action.log .debug s!"`{path}` compiled: {artifact.bytecode.length} bytes of deploy bytecode"
  return artifact

namespace Setup

variable {σ : Type}

/-- Compares the expected version, if there is one, with the pragmas of sources. -/
def checkExpected (c : Setup σ) (sources : NameMap String) (file name : String) : Except Failure Unit :=
  match c.expected with
  | none => .ok ()
  | some version =>
    match Pragma.check version sources with
    | .ok () => .ok ()
    | .error fault => .error (.compilation (contractPath file name) [fault.message])

/-- Compares the version that the toolchain reports with the pragmas of sources. Of the causes of a failed report only
the outermost is told. -/
def checkReported (c : Setup σ) (sources : NameMap String) : Action σ Unit := do
  match ← Action.call .askedVersion c.toolchain.version with
  | .error causes => throw (.compilation "*" [causes.outermost])
  | .ok version =>
    match Pragma.check version sources with
    | .ok () => return ()
    | .error fault => throw (.compilation "*" [fault.message])

/-- Submits a request. -/
def submit (c : Setup σ) (request : Request) (file name : String) : Action σ Response := do
  match ← Action.call (.submitted request) (c.toolchain.compile request) with
  | .error causes => throw (.compilation (contractPath file name) causes.all)
  | .ok response => return response

/-- Compiles sources and gives the artifact of one contract. -/
def compile (c : Setup σ) (sources : NameMap String) (file name : String) : Action σ Artifact := do
  Action.ofExcept (c.checkExpected sources file name)
  let response ← c.submit (.ofSources sources) file name
  extract response file name

end Setup

end ProxyForge.Compiler
