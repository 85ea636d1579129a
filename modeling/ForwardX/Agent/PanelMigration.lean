import ForwardX.Lib.Transition
import ForwardX.Agent.ActionStatus

/- The migration of the agent from one panel to another (`panel_migration.go`).

   A call is cut where other calls can come in between: at the reads of the runtime URL, at
   the sections under the lock of `panelMigrationRuntime`, and at `setRuntimePanelURL`. A
   `Call` says where a call stands and what it has read. The file is written inside a
   section, the URL is switched after it.

   `Url` is the type of the normalized URLs, the values of `normalizePanelURL`; normalizing
   one again gives it back and is left out. Times are nanoseconds, `StartedAt` is seconds. -/
namespace ForwardX.Agent.Migration

open Transition Status

variable {Url : Type}

def panelMigrationFallbackFailures : Nat := 2
def panelMigrationFallbackDeadline : Int := 180 * 1000000000

/-- `time.Unix(seconds, 0)`. -/
def unix (seconds : Int) : Int := seconds * 1000000000

/-- The zero `time.Time`. -/
def zeroTime : Int := unix (-62135596800)

structure Env (Url : Type) where
  normalizePanelURL : String → Option Url
  toLower : String → String

/-- `panelMigrationDirective`. -/
structure Directive where
  id : String
  state : String
  targetPanelURL : String
  fallbackPanelURL : String
  startedAt : Int
  deriving DecidableEq, Repr

/-- The fields of the config file that a migration reads and writes. -/
structure File (Url : Type) where
  panelUrl : Url
  migrationFallbackPanelUrl : Option Url
  panelMigrationId : Option String
  panelMigrationStartedAt : Option Int
  deriving DecidableEq, Repr

/-- `persistPanelMigrationConfig` with the migration. -/
def File.prepared (panelUrl fallback : Url) (id : String) (startedAt : Int) : File Url where
  panelUrl := panelUrl
  migrationFallbackPanelUrl := some fallback
  panelMigrationId := some id
  panelMigrationStartedAt := some (startedAt / 1000000000)

/-- `persistPanelMigrationConfig` that clears the migration. -/
def File.cleared (panelUrl : Url) : File Url where
  panelUrl := panelUrl
  migrationFallbackPanelUrl := none
  panelMigrationId := none
  panelMigrationStartedAt := none

/-- `panelMigrationRuntime`. -/
structure Runtime (Url : Type) where
  active : Bool
  id : String
  fallback : Option Url
  startedAt : Int
  failures : Nat
  terminalID : String
  streamConnected : Bool
  deriving DecidableEq, Repr

def initializePanelMigration (f : File Url) (now : Int) : Runtime Url :=
  let id := trimSpace (f.panelMigrationId.getD "")
  let startedAt := unix (f.panelMigrationStartedAt.getD 0)
  { active := id ≠ "" && f.migrationFallbackPanelUrl.isSome
    id
    fallback := f.migrationFallbackPanelUrl
    startedAt := if startedAt = zeroTime ∨ startedAt > now then now else startedAt
    failures := 0
    terminalID := ""
    streamConnected := false }

inductive Call (Url : Type)
  /-- `handlePanelMigrationDirective` before it reads the runtime URL. -/
  | directive (d : Directive)
  /-- A preparing or committing directive before the lock; `current` is the URL it has read. -/
  | prepare (d : Directive) (target current : Url)
  /-- Before the lock that compares the id of the active migration. -/
  | compare (id state : String)
  /-- `switchToCommittedPanel` before it reads the runtime URL. -/
  | committed (target : Url) (id : String)
  /-- `switchToCommittedPanel` before the lock. -/
  | commit (target : Url) (id : String)
  /-- `switchToPanelMigrationFallback` before the lock. -/
  | fallback
  /-- `switchToPanelMigrationFallback` after the lock, before it reads the runtime URL. -/
  | restored (target : Url) (id : String)
  /-- Before `setRuntimePanelURL`; `rollback` is the migration to report afterwards. -/
  | switch (target : Url) (rollback : Option String)
  /-- `clearPanelMigrationFallback` before the lock. -/
  | clear
  /-- `reportPanelMigrationRollback` before the answer. -/
  | report (id : String)
  /-- `recordPanelMigrationHeartbeatFailure` before the lock. -/
  | failure
  deriving DecidableEq, Repr

/-- The agent: its config file, `runtimePanelURL`, `panelMigrationRuntime` and the calls in progress. -/
structure State (Url : Type) where
  file : File Url
  url : Url
  runtime : Runtime Url
  calls : List (Call Url)
  deriving DecidableEq, Repr

def State.start (f : File Url) (now : Int) : State Url :=
  { file := f, url := f.panelUrl, runtime := initializePanelMigration f now, calls := [] }

/-- What a call meets at its next step: whether the file can be replaced, the time, and what
the panel answers to a rollback report (a URL if it has migrated). -/
structure Meets where
  written : Bool
  now : Int
  migrated : Option String
  deriving DecidableEq, Repr

inductive Act
  | directive (d : Directive)
  | heartbeatFailure
  /-- A `migratedPanelError` of a heartbeat. -/
  | redirect (panelURL : String)
  | heartbeatSuccess
  | stream (connected : Bool)
  /-- The next step of a call. -/
  | advance (i : Nat) (m : Meets)
  | restart (now : Int)
  deriving DecidableEq, Repr

section
variable [DecidableEq Url] (env : Env Url)

/-- The fallback of a preparing directive. -/
def prepareFallback (rt : Runtime Url) (d : Directive) (target current : Url) : Option Url :=
  env.normalizePanelURL d.fallbackPanelURL <|> rt.fallback <|> (if target ≠ current then some current else none)

/-- The start of a migration: the directive's, or else the one known or now. -/
def prepareStartedAt (rt : Runtime Url) (d : Directive) (now : Int) : Int :=
  if d.startedAt ≤ 0 ∨ unix d.startedAt > now then
    if rt.id = trimSpace d.id ∧ rt.startedAt ≠ zeroTime then rt.startedAt else now
  else unix d.startedAt

def alreadyActive (rt : Runtime Url) (d : Directive) (target current fallback : Url) : Bool :=
  rt.active && rt.id = trimSpace d.id && rt.fallback = some fallback && current = target

/-- A migration starts, or goes on; if it switches, the stream is of the old panel. -/
def Runtime.prepare (rt : Runtime Url) (id : String) (fallback : Url) (startedAt : Int) (switches : Bool) :
    Runtime Url :=
  { rt with
    active := true
    id
    fallback := some fallback
    startedAt
    failures := 0
    streamConnected := if switches then false else rt.streamConnected }

/-- The section of a preparing or committing directive. -/
def prepareSection (s : State Url) (d : Directive) (target current : Url) (m : Meets) :
    State Url × Option (Call Url) :=
  if s.runtime.terminalID = trimSpace d.id then (s, none)
  else
    match prepareFallback env s.runtime d target current with
    | none => (s, none)
    | some fallback =>
      let startedAt := prepareStartedAt s.runtime d m.now
      let known := alreadyActive s.runtime d target current fallback
      if known = false ∧ m.written = false then (s, none)
      else
        ({ s with
            file := if known then s.file else File.prepared target fallback (trimSpace d.id) startedAt
            runtime := s.runtime.prepare (trimSpace d.id) fallback startedAt (current ≠ target) },
          if current ≠ target then some (.switch target none) else none)

def Runtime.terminate (rt : Runtime Url) (id : String) : Runtime Url :=
  { rt with terminalID := id, active := false, failures := 0, streamConnected := false }

def Runtime.committed (rt : Runtime Url) (id : String) : String :=
  if trimSpace id ≠ "" then trimSpace id else rt.id

/-- The first part of `handlePanelMigrationDirective`, up to a lock. -/
def readDirective (s : State Url) (d : Directive) : Option (Call Url) :=
  let id := trimSpace d.id
  let state := env.toLower (trimSpace d.state)
  if id = "" ∨ state = "" then none
  else if state = "preparing" ∨ state = "committing" then
    some (.prepare d ((env.normalizePanelURL d.targetPanelURL).getD s.url) s.url)
  else
    match (env.normalizePanelURL d.targetPanelURL).filter (fun target => state = "committed" ∧ target ≠ s.url) with
    | some target => some (.committed target id)
    | none => some (.compare id state)

/-- The section of `recordPanelMigrationHeartbeatFailure`, and what it decides. -/
def failureSection (s : State Url) (now : Int) : State Url × Option (Call Url) :=
  if s.runtime.active = false then (s, none)
  else
    let failures := s.runtime.failures + 1
    let elapsed := now - s.runtime.startedAt
    ({ s with runtime := { s.runtime with failures } },
      if s.runtime.streamConnected = true
        ∨ (failures < panelMigrationFallbackFailures ∧ elapsed < panelMigrationFallbackDeadline) then none
      else some .fallback)

/-- The next step of a call, and where the call then stands if it goes on. -/
def callStep (s : State Url) (c : Call Url) (m : Meets) : State Url × Option (Call Url) :=
  match c with
  | .directive d => (s, readDirective env s d)
  | .prepare d target current => prepareSection env s d target current m
  | .compare id state =>
    (s, if s.runtime.active = true ∧ s.runtime.id = id then
        if state = "aborted" then some .fallback else if state = "committed" then some .clear else none
      else none)
  | .committed target id => (s, if target = s.url then none else some (.commit target id))
  | .commit target id =>
    if m.written = false then (s, none)
    else ({ s with file := File.cleared target, runtime := s.runtime.terminate (s.runtime.committed id) },
      some (.switch target none))
  | .fallback =>
    match s.runtime.fallback.filter (fun _ => s.runtime.active && m.written) with
    | none => (s, none)
    | some fallback =>
      ({ s with file := File.cleared fallback, runtime := s.runtime.terminate s.runtime.id },
        some (.restored fallback s.runtime.id))
  | .restored target id => (s, if target = s.url then none else some (.switch target (some id)))
  | .switch target rollback => ({ s with url := target }, rollback.map .report)
  | .clear =>
    if s.runtime.active = false ∨ m.written = false then (s, none)
    else ({ s with file := File.cleared s.url, runtime := s.runtime.terminate s.runtime.id }, none)
  | .report id => (s, (m.migrated.bind env.normalizePanelURL).map fun target => .committed target id)
  | .failure => failureSection s m.now

def putBack (calls : List (Call Url)) (i : Nat) : Option (Call Url) → List (Call Url)
  | none => calls.eraseIdx i
  | some c => calls.set i c

def step (s : State Url) : Act → Option (State Url)
  | .directive d => some { s with calls := s.calls ++ [.directive d] }
  | .heartbeatFailure => some { s with calls := s.calls ++ [.failure] }
  | .redirect panelURL =>
    some { s with calls := s.calls ++ ((env.normalizePanelURL panelURL).map fun target => .committed target "").toList }
  | .heartbeatSuccess => some { s with runtime := { s.runtime with failures := 0 } }
  | .stream connected =>
    some { s with runtime := { s.runtime with
      streamConnected := connected
      failures := if connected then 0 else s.runtime.failures } }
  | .advance i m => s.calls[i]?.map fun c =>
      let done := callStep env s c m
      { done.1 with calls := putBack s.calls i done.2 }
  | .restart now => some (State.start s.file now)

abbrev steps : Steps (State Url) Act := Steps.ofFn (step env)

end

end ForwardX.Agent.Migration
