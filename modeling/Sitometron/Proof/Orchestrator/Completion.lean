import Sitometron.Proof.Core.Invariant
import Sitometron.Proof.Orchestrator.Serving

/-!
# Every admitted input is completed once

What the soundness of the desk says about the log: sequences are consumed by admissions only, leave the queue in order, and
each gets its completion in its own slot.
-/

namespace Sitometron.Core.Orchestrator

variable {c : Setup} {s : State c} {e : Entry c}

def Observation.admission? : Observation c → Option Nat
  | .admitted e _ => some e.sequence
  | _ => none

def Observation.completion? : Observation c → Option Nat
  | .completed _ sequence _ => some sequence
  | _ => none

def Observation.isRegular : Observation c → Prop
  | .admitted e result => e.completionIndex.isSome = true ∧ result.code = .admitted ∧ result.ingressSequence = e.sequence
  | .refused _ result => result.code ≠ .admitted
  | .dequeued e | .disposed e => e.completionIndex.isSome = true
  | _ => True

theorem Occupied.code {input : Input} {identity : Option GateIdentity} {code : IngressCode} {sequence : Nat}
    (occupied : Occupied s input identity code sequence) : code ≠ .admitted := by
  cases occupied <;> simp

theorem Serves.shows_regular (serves : Serves s s.writer.entry?) {lib : Libraries} {observation : Observation c}
    (shown : Shows lib s observation) : observation.isRegular := by
  cases shown with
  | writer shown =>
      cases shown with
      | dequeued idle front =>
          rw [Ring.front?_eq] at front
          have queued := serves.served.tickets _ (List.mem_append_right _ (List.mem_of_mem_head? front))
          exact queued
      | disposed failing member => exact serves.served.tickets _ (List.mem_append_right _ member)
      | _ => trivial
  | admitted admits => exact ⟨admits.placed, admits.code, admits.answer⟩
  | refused reason =>
      intro admitted
      simp [admitted, IngressCode.isPlain] at reason
  | occupied held => exact held.code
  | stopping other => exact other
  | taken done => trivial
  | acked prepared found retained authorized held same => trivial

theorem Reached.regular {lib : Libraries} (reached : Reached lib c s) : ∀ observation ∈ s.log, observation.isRegular := by
  induction reached with
  | start started =>
      obtain ⟨pool, -, rfl⟩ := Option.map_eq_some_iff.1 started
      simp
  | @step s action before ih =>
      intro observation member
      rcases (step_shows lib s action).mem member with old | new
      · exact ih observation old
      · exact before.serves.shows_regular new

section Log

variable {current : Option (Entry c)}

theorem Entry.ticket?_number {e : Entry c} (placed : e.completionIndex.isSome = true) :
    e.ticket?.map (·.number) = some e.sequence := by
  obtain ⟨k, place⟩ := Option.isSome_iff_exists.1 placed
  simp [Entry.ticket?, place]

theorem State.desk_issued (regular : ∀ observation ∈ s.log, observation.isRegular) :
    (s.desk current).issued.map (·.number) = s.log.filterMap Observation.admission? := by
  rw [Desk.issued, State.desk, List.filterMap_filterMap, List.map_filterMap]
  apply List.filterMap_congr
  intro observation member
  have fine := regular observation member
  cases observation with
  | admitted e result =>
      have number := Entry.ticket?_number fine.1
      cases ticket : e.ticket? with
      | none => simp [ticket] at number
      | some t => simpa [Observation.mark?, Observation.admission?, ticket, Mark.issue?] using number
  | dequeued e => cases ticket : e.ticket? <;> simp [Observation.mark?, Observation.admission?, ticket, Mark.issue?]
  | disposed e => cases ticket : e.ticket? <;> simp [Observation.mark?, Observation.admission?, ticket, Mark.issue?]
  | _ => rfl

theorem State.desk_answers : (s.desk current).answers.map Prod.fst = s.log.filterMap Observation.completion? := by
  rw [Desk.answers, State.desk, List.filterMap_filterMap, List.map_filterMap]
  apply List.filterMap_congr
  intro observation _
  cases observation with
  | admitted e result => cases ticket : e.ticket? <;> simp [Observation.mark?, Observation.completion?, ticket, Mark.answer?]
  | dequeued e => cases ticket : e.ticket? <;> simp [Observation.mark?, Observation.completion?, ticket, Mark.answer?]
  | disposed e => cases ticket : e.ticket? <;> simp [Observation.mark?, Observation.completion?, ticket, Mark.answer?]
  | _ => rfl

theorem numbers_of_placed {entries : List (Entry c)} (placed : ∀ e ∈ entries, e.completionIndex.isSome = true) :
    (entries.filterMap Entry.ticket?).map (·.number) = entries.map (·.sequence) := by
  rw [List.map_filterMap, ← List.filterMap_eq_map]
  apply List.filterMap_congr
  intro e member
  rw [Entry.ticket?_number (placed e member)]
  rfl

theorem Served.waiting_numbers (served : Served s current) :
    ((s.desk current).waiting.map (·.number)) = (current.toList ++ s.fifo.toList).map (·.sequence) := by
  have whole : (s.desk current).waiting = (current.toList ++ s.fifo.toList).filterMap Entry.ticket? := by
    rw [List.filterMap_append]
    cases current with
    | none => rfl
    | some e => cases ticket : e.ticket? <;> simp [Desk.waiting, State.desk, ticket]
  rw [whole]
  exact numbers_of_placed served.tickets

theorem State.mem_desk_issued {ticket : Ticket c.completionCapacity} (member : ticket ∈ (s.desk current).issued) :
    ∃ e result, .admitted e result ∈ s.log ∧ e.ticket? = some ticket := by
  rw [Desk.issued, State.desk, List.filterMap_filterMap, List.mem_filterMap] at member
  obtain ⟨observation, logged, shown⟩ := member
  cases observation with
  | admitted e result =>
      refine ⟨e, result, logged, ?_⟩
      cases ticket : e.ticket? with
      | none => simp [Observation.mark?, ticket] at shown
      | some t => simpa [Observation.mark?, ticket, Mark.issue?] using shown
  | dequeued e => cases ticket : e.ticket? <;> simp [Observation.mark?, ticket, Mark.issue?] at shown
  | disposed e => cases ticket : e.ticket? <;> simp [Observation.mark?, ticket, Mark.issue?] at shown
  | _ => simp [Observation.mark?, Mark.issue?] at shown

theorem State.mem_desk_log {k : Fin c.completionCapacity} {sequence : Nat} {value : Completion} :
    .answered k sequence value ∈ (s.desk current).log ↔ .completed k sequence value ∈ s.log := by
  rw [State.desk, List.mem_filterMap]
  constructor
  · rintro ⟨observation, logged, shown⟩
    cases observation with
    | admitted e result => cases ticket : e.ticket? <;> simp [Observation.mark?, ticket] at shown
    | dequeued e => cases ticket : e.ticket? <;> simp [Observation.mark?, ticket] at shown
    | disposed e => cases ticket : e.ticket? <;> simp [Observation.mark?, ticket] at shown
    | completed l number completion =>
        simp only [Observation.mark?, Option.some.injEq, Mark.answered.injEq] at shown
        obtain ⟨rfl, rfl, rfl⟩ := shown
        exact logged
    | _ => simp [Observation.mark?] at shown
  · exact fun logged => ⟨_, logged, rfl⟩

end Log

def State.waiting (s : State c) : List (Entry c) := s.writer.entry?.toList ++ s.fifo.toList

namespace Serves

variable {current : Option (Entry c)}

theorem all (serves : Serves s current) (regular : ∀ observation ∈ s.log, observation.isRegular) :
    (s.log.filterMap Observation.admission?).Perm
      (s.log.filterMap Observation.completion? ++ (current.toList ++ s.fifo.toList).map (·.sequence)) := by
  have once := serves.served.sound.once.map Prod.fst
  rw [List.map_append, List.map_map, List.map_map, State.desk_answers] at once
  have numbers : (s.desk current).issued.map (Prod.fst ∘ fun t => (t.number, t.place)) =
      s.log.filterMap Observation.admission? := State.desk_issued regular
  have waiting : (s.desk current).waiting.map (Prod.fst ∘ fun t => (t.number, t.place)) =
      (current.toList ++ s.fifo.toList).map (·.sequence) := serves.served.waiting_numbers
  rwa [numbers, waiting] at once

theorem consumed (serves : Serves s current) (regular : ∀ observation ∈ s.log, observation.isRegular) :
    s.log.filterMap Observation.admission? =
        List.range' c.initialIngressSequence (s.log.filterMap Observation.admission?).length ∧
      s.nextIngress = if c.initialIngressSequence + (s.log.filterMap Observation.admission?).length ≤ uint64Max
        then c.initialIngressSequence + (s.log.filterMap Observation.admission?).length else 0 := by
  have counted := serves.served.sound.counted
  have issued : (s.desk current).issued.map (·.number) = _ := State.desk_issued regular
  have length : (s.desk current).issued.length = (s.log.filterMap Observation.admission?).length := by
    rw [← issued, List.length_map]
  constructor
  · rw [← length, ← issued]
    exact counted.numbers
  · rw [← length]
    exact counted.next

theorem own (serves : Serves s current) {k : Fin c.completionCapacity} {sequence : Nat} {value : Completion}
    (completed : .completed k sequence value ∈ s.log) :
    ∃ e result, .admitted e result ∈ s.log ∧ e.sequence = sequence ∧ e.completionIndex = some k := by
  have answered : (sequence, k) ∈ (s.desk current).answers :=
    List.mem_filterMap.2 ⟨_, State.mem_desk_log.2 completed, rfl⟩
  have issued := serves.served.sound.once.mem_iff.2 (List.mem_append_left _ answered)
  obtain ⟨ticket, member, same⟩ := List.mem_map.1 issued
  obtain ⟨e, result, admitted, given⟩ := State.mem_desk_issued member
  obtain ⟨place, index, made⟩ := Option.map_eq_some_iff.1 given
  subst made
  obtain ⟨rfl, rfl⟩ := Prod.mk.inj same
  exact ⟨e, result, admitted, rfl, index⟩

end Serves

def sampleSetup : Setup where
  maxJobs := 1
  normalCapacity := 2
  traceCapacity := 21
  completionCapacity := 21
  handoffCapacity := 4
  ackCapacity := 1
  callbackRegistrationCapacity := 2
  valid := by decide
  inRange := by decide

def sampleStart : State sampleSetup := (initial sampleSetup).get (by decide)

def sampleIdentities : GeneratedIdentityBundle :=
  ⟨sampleJob, ⟨text "01890000-0000-4000-8000-000000000002"⟩, ⟨text "launch-1"⟩⟩

theorem sample_reached (actions : List (Action sampleSetup)) :
    Reached sampleLibraries sampleSetup (actions.foldl (step sampleLibraries) sampleStart) := by
  induction actions using List.reverseRecOn with
  | nil => exact .start (by rw [List.foldl_nil, sampleStart, Option.some_get])
  | append_singleton actions action ih =>
      rw [List.foldl_append]
      exact ih.step action

def sampleTurn : List (Action sampleSetup) := List.replicate 11 (.writer {})

def sampleCreation : List (Action sampleSetup) :=
  [.createBegin, .createGenerated sampleIdentities, .createEnd] ++ sampleTurn

end Sitometron.Core.Orchestrator
