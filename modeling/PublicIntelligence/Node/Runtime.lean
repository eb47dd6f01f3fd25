import PublicIntelligence.Lib.Runs
import PublicIntelligence.Lib.Text

namespace PublicIntelligence.Node

open Runs

/-- A list of models, each by its name: the rest of a `ModelInfo` neither reaches
the Scheduler nor decides anything here. -/
abbrev Catalogue := List Text

/-- What makes two catalogues the same: the names, sorted. -/
def modelNames (models : Catalogue) : List Text := Text.sorted models

/-- How a request to the Scheduler ends for the client: a 2xx, a `SchedulerError`
with the status of the answer (none if there was no answer), or any other exception. -/
inductive Answer where
  | ok
  | error (status : Option Nat)
  | raised
deriving DecidableEq

inductive RegistrationStatus where
  | notStarted
  | starting
  | pending
  | registered
  | failed
  | unregistered
deriving DecidableEq

/-- Where `start()` waits. -/
inductive StartPc where
  | idle
  | discovering
  | probing (models : Catalogue)
  | registering
  | publishing
  | completed
  | failed
deriving DecidableEq

inductive HeartbeatPc where
  | absent
  | sleeping
  | measuring
  | sending
  | finished
deriving DecidableEq

/-- Where the registration retry task waits. `created` has not run yet, `finished`
has returned or died. -/
inductive RetryPc where
  | absent
  | created
  | sleeping
  | registering
  | publishing
  | finished
deriving DecidableEq

inductive RefreshPc where
  | absent
  | sleeping
  | listing
  | publishing (models : Catalogue)
  | finished
deriving DecidableEq

structure Runtime where
  isRunning : Bool
  registrationStatus : RegistrationStatus
  /-- `node_info`, by its `available_models`. -/
  nodeInfo : Option Catalogue
  advertisedModels : Catalogue
  catalogueSynced : Bool
  start : StartPc
  heartbeat : HeartbeatPc
  retry : RetryPc
  refresh : RefreshPc
deriving DecidableEq

namespace Runtime

def init : Runtime := ⟨false, .notStarted, none, [], false, .idle, .absent, .absent, .absent⟩

/-- A code segment, by what ended the wait before it. `rest` says whether what
`start()` does after registering (Zenoh session, telemetry, mesh server, tasks) raised nothing. -/
inductive Act where
  | start
  | discovered (models : Option Catalogue)
  | probed (built : Bool)
  | startAnswered (a : Answer) (rest : Bool)
  | heartbeatWoke
  | heartbeatMeasured (built : Bool)
  | heartbeatAnswered (a : Answer)
  | retryWoke
  | retryAnswered (a : Answer)
  | refreshWoke
  | refreshListed (models : Option Catalogue)
  | refreshAnswered (a : Answer)
  | stop

def retryLive (r : Runtime) : Bool :=
  match r.retry with
  | .absent | .finished => false
  | _ => true

/-- `_arm_registration_retry` -/
def armRegistrationRetry (r : Runtime) : Runtime :=
  if r.retryLive then r else { r with retry := .created }

/-- What an answer to `register` makes of `_attempt_registration`. -/
inductive Attempt where
  | created
  | conflict
  | refused
  | crashed
deriving DecidableEq

/-- `_attempt_registration` up to its next wait or its end. -/
def attemptRegistration (r : Runtime) : Answer → Runtime × Attempt
  | .ok =>
    ({ r with
        registrationStatus := .registered
        advertisedModels := r.nodeInfo.getD []
        catalogueSynced := true }, .created)
  | .error (some 409) => ({ r with registrationStatus := .registered }, .conflict)
  | .error _ => (r, .refused)
  | .raised => (r, .crashed)

/-- `_publish_model_catalogue` once the push has ended: whatever went wrong, nothing is
recorded. -/
def publishModelCatalogue (r : Runtime) (models : Catalogue) (a : Answer) : Runtime :=
  if a = .ok then { r with advertisedModels := models, catalogueSynced := true } else r

/-- The last segment of `start()`. -/
def finishStart (r : Runtime) (rest : Bool) : Runtime :=
  if rest then { r with start := .completed, heartbeat := .sleeping, refresh := .sleeping }
  else { r with start := .failed, isRunning := false, registrationStatus := .failed }

/-- The condition of the retry loop, after which it sleeps or returns. -/
def retryTop (r : Runtime) : Runtime :=
  if r.isRunning ∧ r.registrationStatus ≠ .registered then { r with retry := .sleeping }
  else { r with retry := .finished }

/-- The refresh finds that the Scheduler already has these models. -/
def nothingToPush (r : Runtime) (models : Catalogue) : Bool :=
  r.catalogueSynced && modelNames models = modelNames r.advertisedModels

def refreshTop (r : Runtime) : Runtime :=
  { r with refresh := if r.isRunning then .sleeping else .finished }

/-- `start()` may run again after `stop()`, once no task of the earlier life is left. -/
def startable (r : Runtime) : Bool :=
  !r.isRunning && !r.retryLive &&
    (r.heartbeat = .absent || r.heartbeat = .finished) && (r.refresh = .absent || r.refresh = .finished)

def step : Step Runtime Act
  | r, .start =>
    if r.startable then
      some { r with isRunning := true, registrationStatus := .starting, start := .discovering }
    else none
  | r, .discovered models =>
    if r.start = .discovering then some { r with start := .probing (models.getD []) } else none
  | r, .probed built =>
    match r.start with
    | .probing models =>
      if built then some { r with nodeInfo := some models, start := .registering }
      else some { r with start := .failed, isRunning := false, registrationStatus := .failed }
    | _ => none
  | r, .startAnswered a rest =>
    match r.start with
    | .registering =>
      match r.attemptRegistration a with
      | (r, .created) => some (r.finishStart rest)
      | (r, .conflict) => some { r with start := .publishing }
      | (r, .refused) =>
        some (({ r with registrationStatus := .pending } : Runtime).armRegistrationRetry.finishStart rest)
      | (r, .crashed) =>
        some { r with start := .failed, isRunning := false, registrationStatus := .failed }
    | .publishing => some ((r.publishModelCatalogue (r.nodeInfo.getD []) a).finishStart rest)
    | _ => none
  | r, .heartbeatWoke =>
    if r.heartbeat = .sleeping then
      if !r.isRunning then some { r with heartbeat := .finished }
      else if r.registrationStatus ≠ .registered then some r
      else some { r with heartbeat := .measuring }
    else none
  | r, .heartbeatMeasured built =>
    if r.heartbeat = .measuring then
      some { r with heartbeat := if built then .sending else .sleeping }
    else none
  | r, .heartbeatAnswered a =>
    if r.heartbeat = .sending then
      let r := { r with heartbeat := .sleeping }
      -- Not found: the Scheduler has forgotten this node.
      if a = .error (some 404) then
        some ({ r with registrationStatus := .pending } : Runtime).armRegistrationRetry
      else some r
    else none
  | r, .retryWoke =>
    match r.retry with
    | .created => some r.retryTop
    | .sleeping =>
      if !r.isRunning || r.nodeInfo = none then some { r with retry := .finished }
      else some { r with retry := .registering }
    | _ => none
  | r, .retryAnswered a =>
    match r.retry with
    | .registering =>
      match r.attemptRegistration a with
      | (r, .created) => some { r with retry := .finished }
      | (r, .conflict) => some { r with retry := .publishing }
      | (r, .refused) => some r.retryTop
      | (r, .crashed) => some { r with retry := .finished }
    | .publishing =>
      some { r.publishModelCatalogue (r.nodeInfo.getD []) a with retry := .finished }
    | _ => none
  | r, .refreshWoke =>
    if r.refresh = .sleeping then
      if !r.isRunning then some { r with refresh := .finished }
      else if r.registrationStatus ≠ .registered then some r
      else some { r with refresh := .listing }
    else none
  | r, .refreshListed models =>
    if r.refresh = .listing then
      match models with
      | none => some r.refreshTop
      | some models =>
        if r.nothingToPush models then some r.refreshTop
        else some { r with refresh := .publishing models }
    else none
  | r, .refreshAnswered a =>
    match r.refresh with
    | .publishing models => some (r.publishModelCatalogue models a).refreshTop
    | _ => none
  | r, .stop =>
    if r.isRunning ∧ r.start = .completed then
      some { r with
        isRunning := false
        registrationStatus := .unregistered
        heartbeat := .absent
        retry := .absent
        refresh := .absent }
    else none

end Runtime
end PublicIntelligence.Node
