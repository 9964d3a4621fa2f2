import Sitometron.Proof.Orchestrator.Completion
import Sitometron.Proof.Orchestrator.Lasting

/-!
# The history that a Job shows

A Job shows what the reducer makes of the events that were installed for it, from its creation on or from what the replay had
of it.
-/

namespace Sitometron.Core.Orchestrator

variable {c : Setup} {lib : Libraries} {s t : State c} {e : Entry c} {turn : Turn c} {j : Slot c} {r v w : Resident}

/-- What an installation makes of a slot. -/
inductive Installs (e : Entry c) (turn : Turn c) (j : Slot c) (r v : Resident) : Prop
  | retired : e.victim = some j → v.existing = false →
      (v.timerGeneration = fun phase => r.timerGeneration phase + 1) → Installs e turn j r v
  | shown : j = turn.slot → v.timerGeneration = r.timerGeneration → v.id = r.id →
      v.snapshot = (r.banks turn.bank).snapshot → Installs e turn j r v
  | passed : j ≠ turn.slot → r.Lasts v → Installs e turn j r v

theorem Installs.alike (installs : Installs e turn j r v) (stays : v.Stays w) (timers : w.timerGeneration = v.timerGeneration) :
    Installs e turn j r w := by
  cases installs with
  | retired lost gone next => exact .retired lost (stays.existing.trans gone) (timers.trans next)
  | shown here same id now => exact .shown here (timers.trans same) (stays.id.trans id) (stays.snapshot.trans now)
  | passed apart lasts => exact .passed apart (lasts.trans ⟨timers, stays.existing, fun _ => stays⟩)

theorem Installs.bare (installs : Installs e turn j r v) (same : w.bare = v.bare) : Installs e turn j r w :=
  installs.alike (.of_bare same) (Resident.Lasts.releasing.bare same).timers

theorem Orderly.landing (orderly : Orderly lib s) (phase : s.writer = .committed e turn) :
    ∃ proposal, Housed s.pool (e :: s.fifo.toList) e.victim ∧ Planned lib s.pool e turn proposal ∧
      e.victim ≠ some turn.slot := by
  have housed := orderly.housed
  have course := orderly.course
  rw [State.live, phase] at housed
  rw [phase] at course
  obtain ⟨chosen, proposal, planned⟩ := course
  refine ⟨proposal, housed, planned, fun same => ?_⟩
  -- a victim is there, so the turn would be no creation, and then it has no victim
  have there := ((housed.settled.kept.residents turn.slot).claimed ((housed.settled.slotted.claimed turn.slot).2 same)).1
  have existing := planned.existing (housed.faithful _)
  have other := chosen.other (by simpa [there] using existing)
  simp [other] at same

theorem State.installPool_installs (apart : e.victim ≠ some turn.slot) (j : Slot c) :
    Installs e turn j (s.pool.residents j) ((State.installPool s.pool e turn).residents j) := by
  have releasing := Resident.Lasts.releasing
  by_cases created : turn.event.eventType = .jobCreated
  · rw [State.installPool_creation created]
    refine Installs.bare ?_ (Pool.activateSources_bare _ _ _ j)
    rw [s.pool.welcome_residents apart]
    split
    · next lost => exact .retired lost rfl rfl
    split
    · next here =>
      subst here
      exact .shown rfl rfl rfl rfl
    · next apart => exact .passed apart (releasing.refl _)
  · rw [State.installPool_event created]
    refine Installs.bare ?_ (Pool.activateSources_bare _ _ _ j)
    rw [Pool.modify_residents]
    split
    · next here =>
      subst here
      exact .shown rfl rfl rfl rfl
    · next apart => exact .passed apart (releasing.refl _)

theorem Orderly.installs (orderly : Orderly lib s) (phase : s.writer = .committed e turn) (j : Slot c) :
    Installs e turn j (s.pool.residents j) ((s.install e turn).pool.residents j) := by
  obtain ⟨proposal, -, -, apart⟩ := orderly.landing phase
  have installs := State.installPool_installs (s := s) apart j
  have residents := State.publishMany_residents (1 + traceSourceCount turn.event.eventType)
    ({ s with pool := State.installPool s.pool e turn }.note (.installed turn.slot turn.event), turn)
  rw [State.install]
  dsimp only [State.enter]
  generalize State.publishMany _ _ = published at residents
  have same : published.1.pool.residents j = (State.installPool s.pool e turn).residents j := congrFun residents j
  rw [← same] at installs
  cases State.workerSequenceOf turn.event with
  | none => exact installs
  | some sequence =>
      exact installs.alike (.modify (fun r => .worker r sequence) j) (Pool.modify_field (·.timerGeneration) (by intro r; rfl) j)

theorem State.declareEffect_residents (s : State c) (e : Entry c) (turn : Turn c) (operation : PreparedEffect)
    (rest : List PreparedEffect) (j : Slot c) :
    ∃ timers, (s.declareEffect e turn operation rest).pool.residents j = { s.pool.residents j with timerGeneration := timers } ∧
      (timers = (s.pool.residents j).timerGeneration ∨ j = turn.slot ∧ ∃ phase generation,
        operation.timerUpdate = some (phase, generation) ∧
          timers = Function.update (s.pool.residents j).timerGeneration phase generation) := by
  have residents := s.publishPrepared_residents turn
  rw [State.declareEffect]
  dsimp only [State.enter]
  generalize s.publishPrepared turn = published at residents
  cases update : operation.timerUpdate with
  | none => exact ⟨_, congrFun residents j, .inl rfl⟩
  | some arm =>
      dsimp only
      rw [Pool.modify_residents, residents]
      split
      · next here =>
        subst here
        exact ⟨_, rfl, .inr ⟨rfl, arm.1, arm.2, rfl, rfl⟩⟩
      · exact ⟨_, rfl, .inl rfl⟩

/-! ## The events of a Job -/

def Observation.installed? : Observation c → Option LogicalJobEvent
  | .installed _ event => some event
  | _ => none

def State.history (s : State c) : List LogicalJobEvent := s.log.filterMap Observation.installed?

/-- What an event makes of what a Job shows. A creation starts over: a Job that was retired may come again. -/
def recount (lib : Libraries) (id : Uuid) (before : Snapshot) (event : LogicalJobEvent) : Snapshot :=
  if event.jobId ≠ id then before
  else (apply lib (if event.eventType = .jobCreated then initialSnapshot id id else before)
    ⟨1, event.jobId, event.eventType, event.payload⟩).snapshot

/-- What the replay had of a Job. -/
def Setup.replayed (c : Setup) (id : Uuid) : Snapshot :=
  (c.replayedJobs.find? fun job => job.jobId = id).getD (initialSnapshot id id)

def State.told (lib : Libraries) (s : State c) (id : Uuid) : Snapshot := s.history.foldl (recount lib id) (c.replayed id)

/-- The Job shows its history, and what the reducer can reach. -/
structure Tells (lib : Libraries) (s : State c) (r : Resident) : Prop where
  told : r.snapshot = s.told lib r.id
  reachable : Reachable lib (c.replayed r.id) r.snapshot ∨ Reachable lib (initialSnapshot r.id r.id) r.snapshot

def Told (lib : Libraries) (s : State c) : Prop :=
  ∀ j, (s.pool.residents j).existing = true → Tells lib s (s.pool.residents j)

def Resident.shown? (r : Resident) : Option (Uuid × Snapshot) := if r.existing then some (r.id, r.snapshot) else none

theorem Resident.Lasts.shown (lasts : r.Lasts v) : v.shown? = r.shown? := by
  rw [Resident.shown?, lasts.existing, Resident.shown?]
  split
  · next there => rw [(lasts.stays there).id, (lasts.stays there).snapshot]
  · rfl

theorem Grows.history (grows : Grows (fun o => o.installed? = none) s t) : t.history = s.history := by
  obtain ⟨more, log, silent⟩ := grows
  rw [State.history, log, List.filterMap_append, List.filterMap_eq_nil_iff.2 silent, List.append_nil, State.history]

theorem State.note_history (s : State c) (o : Observation c) : (s.note o).history = s.history ++ o.installed?.toList := by
  rw [State.history, State.note, List.filterMap_append, State.history]
  cases o <;> rfl

theorem State.install_history (s : State c) (e : Entry c) (turn : Turn c) : (s.install e turn).history = s.history ++ [turn.event] :=
  (Grows.publishMany (fun _ => rfl) _ (_, turn)).history.trans (State.note_history _ (.installed turn.slot turn.event))

theorem Produced.history (produced : Produced lib s t) : t.history = s.history := by
  have note : ∀ (s : State c) o, o.installed? = none → (s.note o).history = s.history := by
    intro s o silent
    rw [s.note_history, silent, Option.toList_none, List.append_nil]
  have insert : ∀ (s : State c) e publish, (s.insert e publish).history = s.history := by
    intro s e publish
    rw [State.insert]
    split <;> exact note _ _ rfl
  cases produced with
  | enqueued creation source ended =>
      cases ended with
      | normal => exact insert s _ _
      | @creation i pool => exact insert { s with pool } _ _
      | @critical i kind lease pool => exact insert { s with pool } _ _
      | _ => exact note _ _ rfl
  | shutdown ended =>
      cases ended with
      | admitted => exact insert s _ _
      | _ => exact note _ _ rfl
  | refused | acked | taken => exact note _ _ rfl
  | _ => rfl

namespace Told

theorem keep (told : Told lib s) (same : t.history = s.history)
    (shown : ∀ j, (t.pool.residents j).shown? = (s.pool.residents j).shown?) : Told lib t := by
  intro j there
  have now := (shown j).symm
  simp only [Resident.shown?, there, if_true, Option.ite_none_right_eq_some, Option.some.injEq, Prod.mk.injEq] at now
  obtain ⟨before, id, snapshot⟩ := now
  obtain ⟨shown, reachable⟩ := told j before
  constructor
  · rw [← snapshot, ← id, shown, State.told, State.told, same]
  · rwa [← snapshot, ← id]

theorem install (told : Told lib s) (orderly : Orderly lib s) (phase : s.writer = .committed e turn) :
    Told lib (s.install e turn) := by
  obtain ⟨proposal, housed, planned, -⟩ := orderly.landing phase
  have transition := Transition.of_apply planned.decides.applied
  have job : turn.event.jobId = (s.pool.residents turn.slot).id :=
    planned.event.2.1.trans (transition.job.trans ((housed.faithful _).jobId planned.reserved))
  have grown : ∀ id, (s.install e turn).told lib id = recount lib id (s.told lib id) turn.event := by
    intro id
    rw [State.told, s.install_history, List.foldl_append]
    rfl
  intro j there
  rcases orderly.installs phase j with ⟨-, gone, -⟩ | ⟨rfl, -, id, now⟩ | ⟨apart, lasts⟩
  · simp [gone] at there
  · -- the slot of the turn: its bank was written from what it showed, and the event says with which proposal
    have made : (⟨1, turn.event.jobId, turn.event.eventType, turn.event.payload⟩ : PreEnvelopeProposal) = proposal := by
      rw [planned.event.1, planned.event.2.1, planned.event.2.2, ← transition.version]
    have existing := planned.existing (housed.faithful _)
    obtain ⟨same, reachable⟩ :
        (if turn.event.eventType = .jobCreated then initialSnapshot (s.pool.residents turn.slot).id _ else s.told lib _) =
            (s.pool.residents turn.slot).snapshot ∧
          (Reachable lib (c.replayed _) (s.pool.residents turn.slot).snapshot ∨
            Reachable lib (initialSnapshot _ _) (s.pool.residents turn.slot).snapshot) := by
      split
      · next created =>
        rw [planned.created_iff.1 created] at existing
        rw [((housed.faithful _).absent existing).start planned.reserved]
        exact ⟨rfl, .inr .start⟩
      · next other =>
        have tells := told turn.slot (by simpa [existing] using fun creation => other (planned.created_iff.2 creation))
        exact ⟨tells.told.symm, tells.reachable⟩
    constructor
    · rw [id, now, planned.written, grown, recount, if_neg (not_not.2 job), same, made]
    · rw [id, now, planned.written]
      exact reachable.imp (.step · planned.decides.proposed) (.step · planned.decides.proposed)
  · have before := lasts.existing ▸ there
    have stays := lasts.stays before
    have taken := (housed.settled.kept.residents j).reserved_of_existing before
    obtain ⟨shown, reachable⟩ := told j before
    refine ⟨?_, by rwa [stays.snapshot, stays.id]⟩
    rw [stays.snapshot, stays.id, shown, grown, recount, if_pos]
    rw [job]
    exact fun same => apart (housed.settled.slotted.distinct _ _ taken planned.reserved same.symm)

theorem turned (told : Told lib s) (orderly : Orderly lib s) (answer : Answer) : Told lib (s.writerStep lib answer) := by
  have moved := Orchestrator.turned lib s answer
  by_cases landing : ∃ e turn, s.writer = .committed e turn
  · obtain ⟨e, turn, phase⟩ := landing
    rw [State.writerStep, phase]
    exact told.install orderly phase
  · have same : (s.writerStep lib answer).history = s.history := by
      apply Grows.history
      apply moved.shows.mono
      intro o shown
      cases shown with
      | installed phase => exact absurd ⟨_, _, phase⟩ landing
      | _ => rfl
    generalize s.writerStep lib answer = t at moved same
    cases moved.writes orderly with
    | nothing lasts => exact told.keep same fun j => (lasts j).shown
    | bank _ written =>
        exact told.keep same fun j => written ▸ Pool.modify_field (·.shown?) (by simp [Resident.shown?, Resident.snapshot]) j
    | shown phase => exact absurd ⟨_, _, phase⟩ landing
    | @timers e turn operation rest phase =>
        apply told.keep same
        intro j
        obtain ⟨timers, value, -⟩ := s.declareEffect_residents e turn operation rest j
        rw [value]
        rfl

theorem produced (told : Told lib s) (orderly : Orderly lib s) (serves : Serves s s.writer.entry?) (produced : Produced lib s t) :
    Told lib t := by
  exact told.keep produced.history fun j => (produced.lasts orderly serves j).shown

theorem initial (started : initial c = some s) : Told lib s := by
  obtain ⟨pool, seeded, rfl⟩ := Option.map_eq_some_iff.1 started
  obtain ⟨rfl, seedable, -⟩ := Pool.seed_some seeded
  intro j there
  rcases Pool.seeded_cases c c.replayedJobs j with ⟨job, place, value⟩ | ⟨-, value⟩
  · have member := List.mem_of_getElem? place
    obtain ⟨other, found⟩ := Option.isSome_iff_exists.1
      (List.find?_isSome (p := fun other : Snapshot => other.jobId = job.jobId) |>.2 ⟨job, member, decide_eq_true rfl⟩)
    have same : other = job := List.inj_on_of_nodup_map seedable.distinct (List.mem_of_find?_eq_some found) member
      (by simpa using List.find?_some found)
    have start : c.replayed job.jobId = job := by
      rw [Setup.replayed, found, same]
      rfl
    dsimp only
    rw [value]
    exact ⟨start.symm, .inl (start.symm ▸ Reachable.start)⟩
  · rw [value] at there
    cases there

end Told

/-- Whatever the ports answer and the producers do, a Job that is there shows its history. -/
theorem visible_history (lib : Libraries) (c : Setup) (s : State c) (reached : Reached lib c s) : Told lib s := by
  induction reached with
  | start started => exact .initial started
  | @step s action reached ih =>
      rcases step_cases lib s action with ⟨answer, taken⟩ | produced
      · rw [taken]
        exact ih.turned reached.orderly answer
      · exact ih.produced reached.orderly reached.serves produced

/-- A Job that one creation has made. -/
theorem visible_history_sample :
    ((sampleCreation.foldl (step sampleLibraries) sampleStart).pool.residents 0).existing = true ∧
      Told sampleLibraries (sampleCreation.foldl (step sampleLibraries) sampleStart) :=
  ⟨by decide +kernel, visible_history _ _ _ (sample_reached _)⟩

end Sitometron.Core.Orchestrator
