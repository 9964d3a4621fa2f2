import Sitometron.Proof.Orchestrator.History
import Sitometron.Proof.Orchestrator.Preparation

/-!
# The generations of the timers

The generations of a slot outlive the Jobs that it has. An arm takes the next one and a retirement skips one, and neither
happens where there is no next one.
-/

namespace Sitometron.Core.Orchestrator

variable {c : Setup} {lib : Libraries} {p q : Pool c} {s t : State c} {i : Slot c} {operations : List PreparedEffect}

/-- What is left of a turn arms one timer at most, with the generation after the one that it has. -/
structure Arms (p : Pool c) (i : Slot c) (operations : List PreparedEffect) : Prop where
  single : (operations.filterMap (·.timerUpdate)).length ≤ 1
  next : ∀ phase generation, (phase, generation) ∈ operations.filterMap (·.timerUpdate) →
    generation.toNat = ((p.residents i).timerGeneration phase).toNat + 1

def Armed (p : Pool c) : Phase c → Prop
  | .prepared e turn | .attempted e turn | .committed e turn => Arms p turn.slot turn.operations ∧
      ∀ j, e.victim = some j → ∀ phase, ((p.residents j).timerGeneration phase).toNat ≠ uint64Max
  | .dispatching _ turn rest | .performing _ turn _ rest => Arms p turn.slot rest
  | _ => True

theorem Arms.frame (arms : Arms p i operations)
    (same : (q.residents i).timerGeneration = (p.residents i).timerGeneration) : Arms q i operations :=
  ⟨arms.single, same ▸ arms.next⟩

theorem Armed.frame {phase : Phase c} (armed : Armed p phase)
    (same : ∀ j, (q.residents j).timerGeneration = (p.residents j).timerGeneration) : Armed q phase := by
  cases phase with
  | prepared | attempted | committed => exact ⟨armed.1.frame (same _), fun j victim => same j ▸ armed.2 j victim⟩
  | dispatching | performing => exact Arms.frame armed (same _)
  | _ => trivial

theorem Arms.prepared {r : Resident} {event : LogicalJobEvent} {applied : ApplyResult}
    (made : prepareEffects c r event applied = .ok operations) (few : (applied.effects.filterMap armedPhase).length ≤ 1)
    (same : (p.residents i).timerGeneration = r.timerGeneration) : Arms p i operations := by
  have each := prepareEffects_for made
  have both : (operations.filterMap (·.timerUpdate)).map Prod.fst = (validEffects applied).filterMap armedPhase ∧
      ∀ operation ∈ operations, ∀ phase generation, operation.timerUpdate = some (phase, generation) →
        generation.toNat = (r.timerGeneration phase).toNat + 1 := by
    clear made
    generalize validEffects applied = ids at each
    induction each with
    | nil => exact ⟨rfl, by simp⟩
    | @cons id operation ids operations one _ ih =>
        refine ⟨?_, List.forall_mem_cons.2 ⟨one.next, ih.2⟩⟩
        rw [List.filterMap_cons, List.filterMap_cons, ← one.arms, ← ih.1]
        cases operation.timerUpdate <;> rfl
  constructor
  · rw [← List.length_map, both.1]
    exact (List.filter_sublist.filterMap _).length_le.trans few
  · intro phase generation member
    obtain ⟨operation, there, update⟩ := List.mem_filterMap.1 member
    rw [same]
    exact both.2 operation there phase generation update

theorem Arms.declare {operation : PreparedEffect} {rest : List PreparedEffect} (arms : Arms p i (operation :: rest))
    (same : operation.timerUpdate = none → (q.residents i).timerGeneration = (p.residents i).timerGeneration) : Arms q i rest := by
  obtain ⟨single, next⟩ := arms
  cases update : operation.timerUpdate with
  | none =>
      rw [List.filterMap_cons_none update] at single next
      exact ⟨single, same update ▸ next⟩
  | some arm =>
      -- after the arm nothing of the turn arms
      have empty : rest.filterMap (·.timerUpdate) = [] := by simpa [List.filterMap_cons, update] using single
      exact ⟨by simp [empty], by simp [empty]⟩

theorem Armed.publish {e : Entry c} (turn : Turn c) (armed : Armed s.pool (.committed e turn)) :
    Armed (s.publishPrepared turn).1.pool (.committed e (s.publishPrepared turn).2) := by
  obtain ⟨cursor, same⟩ := s.publishPrepared_turn turn
  rw [same]
  exact armed.frame fun j => by rw [s.publishPrepared_residents]

theorem State.writeBank_timers (p : Pool c) (i : Slot c) (applied : ApplyResult) (j : Slot c) :
    ((State.writeBank p i applied).residents j).timerGeneration = (p.residents j).timerGeneration :=
  Pool.modify_field (·.timerGeneration) (by intro r; rfl) j

theorem State.publishMany_slot (n : Nat) (at_ : State c × Turn c) : (State.publishMany n at_).2.slot = at_.2.slot := by
  obtain ⟨cursor, same⟩ := State.publishMany_turn n at_
  rw [same]

theorem Armed.turned (armed : Armed s.pool s.writer) (orderly : Orderly lib s) {answer : Answer}
    (moved : Turned lib s answer t) : Armed t.pool t.writer := by
  cases moved with
  | waiting | stuck => exact armed
  | @prepared e i before proposal t operations phase enough applied written ready =>
      have course := orderly.course
      rw [phase] at course
      refine ⟨.prepared ready.effects course.2.2.2.moves.arms_le rfl, fun j victim phase full => ?_⟩
      change ((t.pool.residents j).timerGeneration phase).toNat = _ at full
      rw [written, State.writeBank_timers] at full
      simp [State.cannotMaterialize, show e.victim = some j from victim] at enough
      exact enough.2 phase full
  | @attempted e turn phase ready =>
      rw [phase] at armed
      exact Armed.publish (s := s.beginTurn turn) (State.stamp turn s.nextJournal) armed
  | @committed e turn phase done =>
      rw [phase] at armed
      exact Armed.publish (s := s.note (.commit e turn.event answer.commit)) turn armed
  | @installed e turn phase =>
      rw [phase] at armed
      obtain ⟨-, -, -, apart⟩ := orderly.landing phase
      show Arms _ (State.publishMany _ (_, turn)).2.slot turn.operations
      rw [State.publishMany_slot]
      apply armed.1.frame
      rcases orderly.installs phase turn.slot with ⟨lost, -⟩ | ⟨-, same, -⟩ | ⟨other, -⟩
      · exact absurd lost apart
      · exact same
      · exact absurd rfl other
  | @declared e turn operation rest phase =>
      rw [phase] at armed
      obtain ⟨timers, value, changed⟩ := s.declareEffect_residents e turn operation rest turn.slot
      show Arms _ (State.publishMany 1 (s, turn)).2.slot rest
      rw [State.publishMany_slot]
      exact Arms.declare armed fun none => by simpa [value, none] using changed
  | @performed e turn operation rest phase =>
      rw [phase] at armed
      have lasts := (Resident.Lasts.of_shifts (orderly.act phase).1 turn.slot).trans
        (Resident.Lasts.releasing.publishPrepared (s.act e turn operation) turn turn.slot)
      show Arms _ (State.publishMany 1 (s.act e turn operation, turn)).2.slot rest
      rw [State.publishMany_slot]
      exact Arms.frame armed lasts.timers
  | _ => trivial

theorem Reached.armed (reached : Reached lib c s) : Armed s.pool s.writer := by
  induction reached with
  | start started =>
      obtain ⟨pool, -, rfl⟩ := Option.map_eq_some_iff.1 started
      trivial
  | @step s action reached ih =>
      rcases step_cases lib s action with ⟨answer, taken⟩ | produced
      · rw [taken]
        exact ih.turned reached.orderly (turned lib s answer)
      · rw [produced.writer]
        exact ih.frame fun j => (produced.lasts reached.orderly reached.serves j).timers

theorem step_writes (reached : Reached lib c s) (action : Action c) : Writes lib s (step lib s action) := by
  rcases step_cases lib s action with ⟨answer, taken⟩ | produced
  · rw [taken]
    exact (turned lib s answer).writes reached.orderly
  · exact .nothing (produced.lasts reached.orderly reached.serves)

theorem Armed.rises (armed : Armed s.pool s.writer) (orderly : Orderly lib s) (writes : Writes lib s t) (j : Slot c)
    (k : Fin 4) : ((s.pool.residents j).timerGeneration k).toNat ≤ ((t.pool.residents j).timerGeneration k).toNat := by
  cases writes with
  | nothing lasts => rw [(lasts j).timers]
  | bank _ written => rw [written, State.writeBank_timers]
  | @shown e turn phase =>
      rw [phase] at armed
      rcases orderly.installs phase j with ⟨lost, -, next⟩ | ⟨-, same, -⟩ | ⟨-, lasts⟩
      · have below := armed.2 j lost k
        have bound := ((s.pool.residents j).timerGeneration k).toNat_lt
        rw [uint64Max] at below
        rw [next, UInt64.toNat_add, UInt64.toNat_one, Nat.mod_eq_of_lt (by omega)]
        exact Nat.le_succ _
      · rw [same]
      · rw [lasts.timers]
  | @timers e turn operation rest phase =>
      rw [phase] at armed
      obtain ⟨timers, value, rfl | ⟨rfl, armedPhase, generation, update, rfl⟩⟩ :=
        s.declareEffect_residents e turn operation rest j
      · rw [value]
      · have next := armed.next armedPhase generation (by simp [update])
        rw [value]
        dsimp only
        rw [Function.update_apply]
        split
        · next here =>
          rw [here, next]
          exact Nat.le_succ _
        · exact Nat.le_refl _

/-- What a run makes of the generations of every slot. -/
structure Rises (s t : State c) : Prop where
  kept : ∀ j phase, ((s.pool.residents j).timerGeneration phase).toNat ≤ ((t.pool.residents j).timerGeneration phase).toNat
  fresh : ∀ e turn operation rest phase generation, t.writer = .dispatching e turn (operation :: rest) →
    operation.timerUpdate = some (phase, generation) →
      ((s.pool.residents turn.slot).timerGeneration phase).toNat < generation.toNat

/-- No arm takes a generation that its slot has had, whichever Jobs had the slot. -/
theorem generations_rise (lib : Libraries) (c : Setup) (s : State c) (reached : Reached lib c s) (actions : List (Action c)) :
    Rises s (actions.foldl (step lib) s) := by
  induction actions generalizing s with
  | nil =>
      refine ⟨fun _ _ => Nat.le_refl _, fun e turn operation rest phase generation writer update => ?_⟩
      have armed := reached.armed
      rw [show s.writer = _ from writer] at armed
      have next := armed.next phase generation (by simp [update])
      exact next ▸ Nat.lt_succ_self _
  | cons action actions ih =>
      have once := reached.armed.rises reached.orderly (step_writes reached action)
      obtain ⟨kept, fresh⟩ := ih _ (reached.step action)
      exact ⟨fun j phase => (once j phase).trans (kept j phase), fun e turn operation rest phase generation writer update =>
        (once turn.slot phase).trans_lt (fresh e turn operation rest phase generation writer update)⟩

def sampleArm : List (Action sampleSetup) :=
  sampleCreation ++ [.submitCandidate
    { jobId := sampleJob, eventType := text "resources_committed"
      payloadJson := text "\x7b\"allocation_id\":\"a\",\"allocation_digest\":\"" ++ sampleLibraries.sha256 (text "\x7b\x7d") ++
        text "\",\"resolved_allocation\":\x7b\"schema_id\":\"s\",\"schema_version\":1,\"payload_utf8\":\"\x7b\x7d\"\x7d\x7d" }] ++
  sampleTurn

/-- The first timer of a Job. -/
theorem generations_rise_sample :
    ((sampleArm.foldl (step sampleLibraries) sampleStart).pool.residents 0).timerGeneration 0 = 1 ∧
      Rises sampleStart (sampleArm.foldl (step sampleLibraries) sampleStart) :=
  ⟨by decide +kernel, generations_rise _ _ _ (sample_reached []) _⟩

end Sitometron.Core.Orchestrator
