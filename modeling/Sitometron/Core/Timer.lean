import Sitometron.Core.Validation

/-!
# Timer ingress

`IngestTimer` of `job_reducer.cpp` for one notification, and the candidate text that
`JobOrchestrator::SubmitTimeout` makes of what it emits.
-/

namespace Sitometron.Core

structure TimerNotification where
  jobId : Uuid
  phase : TimeoutPhase
  generation : UInt64
deriving DecidableEq, Repr

/-- The armed flag and the generation of each phase of one Job. -/
structure TimerState where
  jobId : Uuid
  armed : TimeoutPhase → Bool
  generation : TimeoutPhase → UInt64

inductive TimerIngress where
  | failClosed
  | discardWithoutCandidate
  | emitCandidateEvent (jobId : Uuid) (payload : TimeoutExpiredPayload)
deriving DecidableEq, Repr

def ingestTimer (timers : TimerState) (notification : TimerNotification) : TimerIngress :=
  if !isUuid timers.jobId.value (byte '7') || !isUuid notification.jobId.value (byte '7') ||
      notification.jobId ≠ timers.jobId then .failClosed
  else if notification.phase = .invalid then .discardWithoutCandidate
  else if !timers.armed notification.phase || notification.generation ≠ timers.generation notification.phase ||
      notification.generation = 0 then .discardWithoutCandidate
  else .emitCandidateEvent notification.jobId ⟨notification.phase, notification.generation⟩

/-- `none` for the phase that `SubmitTimeout` answers with a readiness failure. -/
def phaseText : TimeoutPhase → Option Bytes
  | .preparation => some (text "preparation")
  | .execution => some (text "execution")
  | .cooperativeStop => some (text "cooperative_stop")
  | .processExitConfirmation => some (text "process_exit_confirmation")
  | .invalid => none

def timeoutCandidate (jobId : Uuid) (payload : TimeoutExpiredPayload) : Option RawCandidateEvent :=
  (phaseText payload.phase).map fun phase =>
    { schemaVersion := 1
      jobId
      eventType := text "timeout_expired"
      payloadJson := text "\x7b\"phase\":\"" ++ phase ++ text "\",\"timer_generation\":" ++
        decimal payload.timerGeneration.toNat ++ text "\x7d" }

end Sitometron.Core
