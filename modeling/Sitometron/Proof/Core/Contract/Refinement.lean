import Sitometron.Proof.Core.Contract.Rows

/-!
# The reducer refines the contract matrix
-/

namespace Sitometron.Core.Contract

theorem created_agrees {lib : Libraries} {s : Snapshot} {version : UInt32} {job : Uuid}
    {p : JobCreatedPayload} (given : Presented lib s ⟨version, job, .jobCreated, .jobCreated p⟩)
    (absent : s.entityExists = false) :
    RowAgrees lib s ⟨version, job, .jobCreated, .jobCreated p⟩ [created] := by
  have accepted : decideEvent lib s ⟨version, job, .jobCreated, .jobCreated p⟩ =
      .ok ⟨1, s.jobId, .jobCreated, .jobCreated p⟩ :=
    decideEvent_eq_ok_iff.2 ⟨given.valid, given.version, given.job, given.canonical, given.payload,
      .inl ⟨rfl, absent, rfl⟩⟩
  have applied := apply_of_authorized (u := applyJobCreated s p) (decideEvent_proposes accepted) rfl
  refine .last ⟨accepted, (applyJobCreated s p).1, spells ?_, applied⟩ rfl
  funext field
  cases field <;> first | rfl | exact congrArg (fun id : Uuid => Value.text id.value) given.job.symm

theorem eventMatrix_agrees {lib : Libraries} {s : Snapshot} {event : InternalEvent}
    (given : Presented lib s event) : RowAgrees lib s event (eventMatrix event.eventType (position s)) := by
  obtain ⟨version, job, type, payload⟩ := event
  have agrees := payloadMatches_of_valid given.payload
  cases present : s.entityExists
  case false =>
    have absent : position s = .absent := by simp [position, present]
    have missing (notCreated : type ≠ .jobCreated) :
        RowAgrees lib s ⟨version, job, type, payload⟩ [refuse .jobNotFound] :=
      .refused (given.decide_eq.trans (by simp [notCreated, present]))
    rw [absent]
    cases type <;> cases payload <;> cases agrees
    case jobCreated.jobCreated => exact created_agrees given present
    all_goals exact missing nofun
  case true =>
    have current : position s = .present s.state := by simp [position, present]
    rw [current]
    cases type <;> cases payload <;> cases agrees
    case jobCreated.jobCreated => exact .refused (given.decide_eq.trans (by simp [present]))
    case resourcesCommitted.resourcesCommitted => exact resourcesCommitted_agrees given present
    case workerLaunchIntent.workerLaunchIntent => exact workerLaunchIntent_agrees given present
    case workerLaunchObserved.workerLaunchObserved => exact workerLaunchObserved_agrees given present
    case workerRunning.workerRunning => exact workerRunning_agrees given present
    case cancelAccepted.principal => exact cancelAccepted_agrees given present
    case terminateAccepted.principal => exact terminateAccepted_agrees given present
    case timeoutExpired.timeoutExpired => exact timeoutExpired_agrees given present
    case workerCompleted.workerEvent => exact workerCompleted_agrees given present
    case workerFailed.workerEvent => exact workerFailed_agrees given present
    case processExitConfirmed.processExitConfirmed => exact processExitConfirmed_agrees given present
    case sessionRetainRequested.session => exact sessionRetainRequested_agrees given present
    case sessionRetained.session => exact sessionRetained_agrees given present
    case finalizationCompleted.empty => exact finalizationCompleted_agrees given present
    case finalizationFailed.empty => exact finalizationFailed_agrees given present
    case terminalOutcomeCommitted.terminalOutcome => exact terminalOutcomeCommitted_agrees given present
    case resourcesReleased.resourcesReleased => exact resourcesReleased_agrees given present
    case cleanupStatusRecorded.cleanupStatus => exact cleanupStatusRecorded_agrees given present
    case lateWorkerEvent.lateWorkerEvent => exact lateWorkerEvent_agrees given present

def commandEvent (c : Command) : InternalEvent :=
  { jobId := c.jobId
    eventType := if c.commandType = .cancel then .cancelAccepted else .terminateAccepted
    payload := .principal ⟨c.principalSubject⟩ }

/-- The code's answer to a command is the verdict of its row, and the journaled event is accepted as the
event matrix says. A command row lists neither updates nor effects. -/
def CommandAgrees (lib : Libraries) (s : Snapshot) (c : Command) : Verdict → Prop
  | .reject reason => decideCommand s c = reject reason
  | .accept journal payload _ _ =>
      decideCommand s c = .ok ⟨1, s.jobId, journal, payload⟩ ∧
        ∃ next effects,
          evaluate (eventMatrix journal (position s)) (view s) ⟨1, s.jobId, journal, payload⟩ =
            some (.accept journal payload next effects) ∧
          Agrees lib s ⟨1, s.jobId, journal, payload⟩ (.accept journal payload next effects)

structure Addressed (s : Snapshot) (c : Command) : Prop where
  valid : validSnapshot s = true
  version : c.schemaVersion = 1
  job : c.jobId = s.jobId
  canonical : isUuid7 c.jobId = true
  principal : isPrincipal c.principalSubject = true
  closed : c.commandType ≠ .invalid

theorem journaled_agrees {lib : Libraries} {s : Snapshot} {c : Command} {proposal : PreEnvelopeProposal}
    (accepted : decideCommand s c = .ok proposal) :
    ∃ next effects, evaluate (eventMatrix proposal.eventType (position s)) (view s) proposal.event =
        some (.accept proposal.eventType proposal.payload next effects) ∧
      Agrees lib s proposal.event (.accept proposal.eventType proposal.payload next effects) := by
  have decided : decideEvent lib s proposal.event = .ok proposal := decideCommand_proposes accepted
  obtain ⟨valid, version, job, canonical, payload, -⟩ := decideEvent_eq_ok_iff.1 decided
  obtain ⟨verdict, evaluated, agrees⟩ := eventMatrix_agrees ⟨valid, version, job, canonical, payload⟩
  cases verdict with
  | reject reason => exact absurd (agrees.symm.trans decided) reject_ne_ok
  | accept journal body next effects =>
      cases (agrees.1.symm.trans decided)
      exact ⟨next, effects, evaluated, agrees⟩

namespace Addressed

variable {lib : Libraries} {s : Snapshot} {c : Command}

theorem decide_missing (given : Addressed s c) (absent : s.entityExists = false) :
    decideCommand s c = reject .jobNotFound := by
  have canonical := given.canonical
  rw [given.job] at canonical
  simp [decideCommand, given.valid, given.version, given.job, canonical, given.principal, given.closed, absent]

theorem decide_cancel (given : Addressed s c) (present : s.entityExists = true)
    (cancel : c.commandType = .cancel) : decideCommand s c =
      if s.state = .stopping then reject .stopCauseAlreadyLatched
      else if s.state ≠ .admitted && s.state ≠ .preparing && s.state ≠ .running then
        reject .commandNotAllowedInState
      else accept s .cancelAccepted (.principal ⟨c.principalSubject⟩) := by
  have canonical := given.canonical
  rw [given.job] at canonical
  simp [decideCommand, given.valid, given.version, given.job, canonical, given.principal, present, cancel]

theorem decide_terminate (given : Addressed s c) (present : s.entityExists = true)
    (terminate : c.commandType = .terminate) : decideCommand s c =
      if (s.state = .stopping || s.state = .finalizing) && s.processExitConfirmed then
        reject .commandNotAllowedInState
      else if s.state ≠ .admitted && s.state ≠ .preparing && s.state ≠ .running &&
          s.state ≠ .stopping && s.state ≠ .finalizing then reject .commandNotAllowedInState
      else accept s .terminateAccepted (.principal ⟨c.principalSubject⟩) := by
  have canonical := given.canonical
  rw [given.job] at canonical
  simp [decideCommand, given.valid, given.version, given.job, canonical, given.principal, present, terminate]

end Addressed

theorem commandMatrix_agrees {lib : Libraries} {s : Snapshot} {c : Command} (given : Addressed s c) :
    ∃ verdict, evaluate (commandMatrix c.commandType (position s)) (view s) (commandEvent c) = some verdict ∧
      CommandAgrees lib s c verdict := by
  have journaled {journal : EventType} {payload : EventPayload} {next : View} {effects : List EffectId}
      (accepted : decideCommand s c = accept s journal payload) :
      CommandAgrees lib s c (.accept journal payload next effects) :=
    ⟨accepted, journaled_agrees accepted⟩
  cases kind : c.commandType
  case invalid => exact absurd kind given.closed
  all_goals cases present : s.entityExists
  case cancel.false | terminate.false =>
    rw [position, if_neg (by simp [present])]
    exact ⟨_, rfl, given.decide_missing present⟩
  case cancel.true =>
    have decided := given.decide_cancel present kind
    rw [position, if_pos present]
    cases state : s.state <;> refine ⟨_, rfl, ?_⟩ <;>
      first | exact journaled (decided.trans (by simp [state, commandEvent])) | exact decided.trans (by simp [state])
  case terminate.true =>
    have decided := given.decide_terminate present kind
    rw [position, if_pos present]
    cases state : s.state
    case stopping | finalizing =>
      cases exit : s.processExitConfirmed
      · refine ⟨_, (evaluate_cons _ _ _ _).trans (if_pos (by simp [exit])), ?_⟩
        exact journaled (decided.trans (by simp [state, exit, commandEvent]))
      · refine ⟨_, (evaluate_cons _ _ _ _).trans ((if_neg (by simp [exit])).trans rfl), ?_⟩
        exact decided.trans (by simp [state, exit])
    all_goals
      refine ⟨_, rfl, ?_⟩
      first | exact journaled (decided.trans (by simp [state, commandEvent])) | exact decided.trans (by simp [state])

/-- The reducer refines the contract: ordered first match over the row of the snapshot's position gives
the code's answer, for events and for commands. -/
theorem reducer_refines_contract (lib : Libraries) (id : Uuid) (canonical : isUuid7 id = true) (s : Snapshot)
    (run : Reachable lib (initialSnapshot id id) s) :
    (∀ c : Command, c.schemaVersion = 1 → c.jobId = s.jobId → isPrincipal c.principalSubject = true →
      c.commandType ≠ .invalid →
      ∃ verdict, evaluate (commandMatrix c.commandType (position s)) (view s) (commandEvent c) = some verdict ∧
        CommandAgrees lib s c verdict) ∧
    ∀ e : InternalEvent, e.schemaVersion = 1 → e.jobId = s.jobId →
      validInternalPayload lib e.eventType e.payload e.jobId = true →
      ∃ verdict, evaluate (eventMatrix e.eventType (position s)) (view s) e = some verdict ∧
        Agrees lib s e verdict := by
  have valid := ((Invariant.initial canonical).reachable run).valid
  have job : isUuid7 s.jobId = true := by
    simp only [validSnapshot, hasValidSnapshotIdentity, Bool.and_eq_true] at valid
    exact valid.1.1.1.1.1.1.1.1.1.2
  refine ⟨fun c version addressed principal closed => ?_, fun e version addressed payload => ?_⟩
  · exact commandMatrix_agrees ⟨valid, version, addressed, addressed ▸ job, principal, closed⟩
  · exact eventMatrix_agrees ⟨valid, version, addressed, addressed ▸ job, payload⟩

/-- On a preparing Job whose Worker was never launched, the cancel row goes straight to finalizing. -/
theorem reducer_refines_contract_cancel :
    ∃ verdict, evaluate (commandMatrix .cancel (position samplePreparing)) (view samplePreparing)
        (commandEvent { commandType := .cancel, jobId := sampleJob, principalSubject := text "operator" }) =
          some verdict ∧
      CommandAgrees sampleLibraries samplePreparing
        { commandType := .cancel, jobId := sampleJob, principalSubject := text "operator" } verdict :=
  (reducer_refines_contract sampleLibraries sampleJob (by decide +kernel) samplePreparing
    samplePreparing_reachable).1 _ rfl (by decide +kernel) (by decide +kernel) nofun

end Sitometron.Core.Contract
