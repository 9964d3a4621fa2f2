import Sitometron.Proof.Orchestrator.Turns

/-!
# What a step can show

Each step appends to the log; what it may append depends on the action and on where the writer stands.
-/

namespace Sitometron.Core.Orchestrator

variable {c : Setup} {s t u : State c} {e : Entry c} {turn : Turn c} {allowed : Observation c → Prop}

def Grows (allowed : Observation c → Prop) (s t : State c) : Prop :=
  ∃ more, t.log = s.log ++ more ∧ ∀ observation ∈ more, allowed observation

namespace Grows

theorem of_eq (same : t.log = s.log) : Grows allowed s t := ⟨[], by simp [same], by simp⟩

theorem trans (first : Grows allowed s t) (second : Grows allowed t u) : Grows allowed s u := by
  obtain ⟨more, log, fine⟩ := first
  obtain ⟨rest, next, good⟩ := second
  refine ⟨more ++ rest, by rw [next, log, List.append_assoc], ?_⟩
  intro observation member
  rcases List.mem_append.1 member with early | late
  · exact fine observation early
  · exact good observation late

theorem note {observation : Observation c} (same : t.log = s.log) (fine : allowed observation) :
    Grows allowed s (t.note observation) := ⟨[observation], by simp [State.note, same], by simpa using fine⟩

theorem mono {wider : Observation c → Prop} (grows : Grows allowed s t)
    (weaken : ∀ observation, allowed observation → wider observation) : Grows wider s t := by
  obtain ⟨more, log, fine⟩ := grows
  exact ⟨more, log, fun observation member => weaken observation (fine observation member)⟩

theorem mem {observation : Observation c} (grows : Grows allowed s t) (member : observation ∈ t.log) :
    observation ∈ s.log ∨ allowed observation := by
  obtain ⟨more, log, fine⟩ := grows
  rw [log] at member
  rcases List.mem_append.1 member with early | late
  · exact .inl early
  · exact .inr (fine observation late)

end Grows

theorem State.publishPrepared_cases (s : State c) (turn : Turn c) :
    s.publishPrepared turn = (s.fail .traceOverrun, turn) ∨
      ∃ record, turn.trace[turn.cursor]? = some record ∧ s.trace.isFull = false ∧ s.publishPrepared turn =
        ({ s with
            trace := s.trace.push { record with ordinal := s.nextTraceOrdinal }
            nextTraceOrdinal := following s.nextTraceOrdinal }.note (.published { record with ordinal := s.nextTraceOrdinal }),
          { turn with cursor := turn.cursor + 1 }) := by
  rw [State.publishPrepared]
  cases found : turn.trace[turn.cursor]? with
  | none => exact .inl rfl
  | some record =>
      cases full : s.trace.isFull with
      | true => exact .inl rfl
      | false => exact .inr ⟨record, rfl, rfl, rfl⟩

theorem State.complete_cases (s : State c) (e : Entry c) (value : Completion) :
    s.complete e value = s ∨ s.complete e value = s.fail .completionMismatch ∨ ∃ k, e.completionIndex = some k ∧
      s.complete e value = { s with book := s.book.complete k e.sequence value }.note (.completed k e.sequence value) := by
  rw [State.complete]
  split
  · exact .inr (.inl rfl)
  · next k place =>
    dsimp only
    split
    · exact .inr (.inl rfl)
    split
    · exact .inl rfl
    · exact .inr (.inr ⟨k, place, rfl⟩)

namespace Grows

theorem publishPrepared (record : ∀ record, allowed (.published record)) : Grows allowed s (s.publishPrepared turn).1 := by
  rcases s.publishPrepared_cases turn with failed | ⟨published, -, -, eq⟩
  · rw [failed]
    exact .of_eq rfl
  · rw [eq]
    exact .note rfl (record _)

theorem publishMany (record : ∀ record, allowed (.published record)) (n : Nat) (at_ : State c × Turn c) :
    Grows allowed at_.1 (State.publishMany n at_).1 := by
  induction n generalizing at_ with
  | zero => exact .of_eq rfl
  | succ n ih => exact (Grows.publishPrepared record).trans (ih _)

theorem complete (value : Completion) (fine : ∀ k, allowed (.completed k e.sequence value)) :
    Grows allowed s (s.complete e value) := by
  rcases s.complete_cases e value with same | failed | ⟨k, -, done⟩
  · exact .of_eq (by rw [same])
  · exact .of_eq (by rw [failed]; rfl)
  · rw [done]
    exact .note rfl (fine k)

end Grows

def CompletionCode.isRefusal : CompletionCode → Bool
  | .success => false
  | _ => true

inductive WriterShows (s : State c) (answer : Answer) : Observation c → Prop
  | dequeued {e : Entry c} : s.writer = .idle → s.fifo.front? = some e →
      WriterShows s answer (.dequeued { e with authorized := !s.pool.failed })
  | disposed {e f : Entry c} {fault : Fault} : s.writer = .failing e fault → f ∈ s.fifo.toList →
      WriterShows s answer (.disposed f)
  | commit {e : Entry c} {turn : Turn c} : s.writer = .attempted e turn → WriterShows s answer (.commit e turn.event answer.commit)
  | installed {e : Entry c} {turn : Turn c} : s.writer = .committed e turn → WriterShows s answer (.installed turn.slot turn.event)
  | handoff {e : Entry c} {turn : Turn c} {operation : PreparedEffect} {rest : List PreparedEffect} {handed : Handoff} :
      s.writer = .performing e turn operation rest → operation.handoff = some handed →
      WriterShows s answer (.handoff e handed)
  | ackAuthorized {e : Entry c} {turn : Turn c} {operation : PreparedEffect} {rest : List PreparedEffect} :
      s.writer = .performing e turn operation rest →
      operation.id = .ackTerminalWorkerEventIfPending ∨ operation.id = .ackLateWorkerEvent →
      WriterShows s answer (.ackAuthorized e turn.slot)
  | published (record : TraceRecord) : s.writer ≠ .idle → WriterShows s answer (.published record)
  | completed {k : Fin c.completionCapacity} {sequence : Nat} {value : Completion} : s.writer ≠ .idle →
      value.code.isRefusal = true → WriterShows s answer (.completed k sequence value)
  | succeeded {e : Entry c} {k : Fin c.completionCapacity} {value : Completion} : s.writer = .completing e value →
      WriterShows s answer (.completed k e.sequence value)
  | marked {e : Entry c} {k : Fin c.completionCapacity} {value : Completion} : s.writer = .dequeued e ∨ s.writer = .started e →
      e.input = .shutdown → WriterShows s answer (.completed k e.sequence value)

theorem State.complete_fifo (s : State c) (e : Entry c) (value : Completion) : (s.complete e value).fifo = s.fifo := by
  rcases s.complete_cases e value with same | failed | ⟨k, -, done⟩
  · rw [same]
  · rw [failed]
    rfl
  · rw [done]
    rfl

theorem State.disposeFront_fifo (s : State c) : s.disposeFront.fifo.toList = s.fifo.toList.tail := by
  rw [State.disposeFront, Ring.front?_eq]
  cases queue : s.fifo.toList with
  | nil => simpa using queue
  | cons e rest =>
      dsimp only [List.head?_cons]
      rw [State.dispose, State.complete_fifo]
      show s.fifo.pop.toList = rest
      rw [Ring.toList_pop, queue]
      rfl

theorem State.disposeQueued_fifo (n : Nat) (s : State c) : (State.disposeQueued n s).fifo.toList = s.fifo.toList.drop n := by
  induction n generalizing s with
  | zero => rfl
  | succ n ih =>
      show (State.disposeQueued n s.disposeFront).fifo.toList = _
      rw [ih, s.disposeFront_fifo, List.drop_tail]

namespace Grows

theorem dispose (fine : ∀ k value, value.code.isRefusal = true → allowed (.completed k e.sequence value)) :
    Grows allowed s (s.dispose e) := by
  apply Grows.trans (t := { s with pool := s.pool.release e false }) (.of_eq rfl)
  exact .complete _ fun k => fine k _ rfl

theorem disposeQueued (n : Nat) (queued : ∀ f ∈ s.fifo.toList, allowed (.disposed f))
    (fine : ∀ k sequence value, value.code.isRefusal = true → allowed (.completed k sequence value)) :
    Grows allowed s (State.disposeQueued n s) := by
  induction n generalizing s with
  | zero => exact .of_eq rfl
  | succ n ih =>
      have front : Grows allowed s s.disposeFront := by
        rw [State.disposeFront]
        cases found : s.fifo.front? with
        | none => exact .of_eq rfl
        | some e =>
            have member : e ∈ s.fifo.toList := by
              rw [Ring.front?_eq] at found
              exact List.mem_of_mem_head? found
            apply Grows.trans (t := { s with fifo := s.fifo.pop }.note (.disposed e)) (.note rfl (queued e member))
            exact .dispose fun k value => fine k _ value
      apply front.trans
      apply ih
      intro f member
      rw [s.disposeFront_fifo] at member
      exact queued f (List.mem_of_mem_tail member)

theorem failTurn (fault : Fault) (queued : ∀ f ∈ s.fifo.toList, allowed (.disposed f))
    (fine : ∀ k sequence value, value.code.isRefusal = true → allowed (.completed k sequence value)) :
    Grows allowed s (s.failTurn e fault) := by
  have disposed : Grows allowed s ((s.fail fault).dispose e) :=
    Grows.trans (t := s.fail fault) (.of_eq rfl) (.dispose fun k value => fine k _ value)
  have cancelled : Grows allowed s
      { (s.fail fault).dispose e with pool := ((s.fail fault).dispose e).pool.cancelGates } := disposed.trans (.of_eq rfl)
  apply Grows.trans _ (.of_eq rfl)
  apply cancelled.trans
  apply Grows.disposeQueued _ _ fine
  intro f member
  have same : ((s.fail fault).dispose e).fifo = s.fifo := State.complete_fifo _ _ _
  exact queued f (same ▸ member)

theorem act {operation : PreparedEffect} (handed : ∀ handed, operation.handoff = some handed → allowed (.handoff e handed))
    (acked : operation.id = .ackTerminalWorkerEventIfPending ∨ operation.id = .ackLateWorkerEvent →
      allowed (.ackAuthorized e turn.slot)) : Grows allowed s (s.act e turn operation) := by
  rw [State.act]
  split
  · exact .of_eq rfl
  split
  · next ack => exact .note rfl (acked (by simpa using ack))
  split
  · exact .of_eq rfl
  · next handed_ found => exact .note rfl (handed _ found)

end Grows

theorem Turned.shows {lib : Libraries} {answer : Answer} (moved : Turned lib s answer t) :
    Grows (WriterShows s answer) s t := by
  cases moved with
  | dequeued idle front => exact .trans (.note rfl (.dequeued idle front)) (.of_eq rfl)
  | cleared phase failed condemned marker =>
      apply Grows.trans _ (.of_eq rfl)
      exact Grows.trans (.of_eq rfl) (.complete _ fun k => .marked (.inl phase) marker)
  | dropped phase failed condemned other =>
      exact .trans (.dispose fun k value refusal => .completed (by simp [phase]) refusal) (.of_eq rfl)
  | marked phase marker =>
      apply Grows.trans _ (.of_eq rfl)
      exact Grows.trans (.of_eq rfl) (.complete _ fun k => .marked (.inr phase) marker)
  | refused phase ticketed =>
      apply Grows.trans _ (.of_eq rfl)
      exact Grows.trans (.of_eq rfl) (.complete _ fun k => .completed (by simp [phase]) rfl)
  | @unprepared e i before proposal t fault phase applied written reason => exact .of_eq (by rw [written]; rfl)
  | @prepared e i before proposal t operations phase enough applied written ready => exact .of_eq (by rw [written]; rfl)
  | @attempted e turn phase ready =>
      apply Grows.trans _ (.of_eq rfl)
      exact Grows.trans (t := s.beginTurn turn) (.of_eq rfl)
        (.publishPrepared fun record => .published record (by simp [phase]))
  | uncommitted phase refused => exact .trans (.note rfl (.commit phase)) (.of_eq rfl)
  | @committed e turn phase done =>
      have called : Grows (WriterShows s answer) s (s.note (.commit e turn.event answer.commit)) := .note rfl (.commit phase)
      exact (called.trans (.publishPrepared fun record => .published record (by simp [phase]))).trans (.of_eq rfl)
  | @installed e turn phase =>
      rw [State.install]
      apply Grows.trans _ (.of_eq rfl)
      exact (Grows.note (t := { s with pool := State.installPool s.pool e turn }) rfl (.installed phase)).trans
        (.publishMany (fun record => .published record (by simp [phase])) _ _)
  | declared phase => exact .trans (.publishPrepared fun record => .published record (by simp [phase])) (.of_eq rfl)
  | @performed e turn operation rest phase =>
      have acted : Grows (WriterShows s answer) s (s.act e turn operation) :=
        .act (fun _ found => .handoff phase found) fun ack => .ackAuthorized phase ack
      exact (acted.trans (.publishPrepared fun record => .published record (by simp [phase]))).trans (.of_eq rfl)
  | responded phase => exact .trans (.publishPrepared fun record => .published record (by simp [phase])) (.of_eq rfl)
  | completed phase => exact .trans (.complete _ fun k => .succeeded phase) (.of_eq rfl)
  | failed phase =>
      exact .failTurn _ (fun f member => .disposed phase member) fun _ _ _ refusal => .completed (by simp [phase]) refusal
  | _ => exact .of_eq rfl

structure Admits (s : State c) (e : Entry c) (result : IngressResult) : Prop where
  healthy : s.pool.failed = false
  unsealed : s.pool.mode ≠ .sealed ∧ s.pool.mode ≠ .stopped
  running : e.critical = false → s.pool.mode = .running
  code : result.code = .admitted
  answer : result.ingressSequence = e.sequence
  sequence : e.sequence = s.nextIngress
  next : s.nextIngress ≠ 0
  placed : e.completionIndex.isSome = true

inductive Shows (lib : Libraries) (s : State c) : Observation c → Prop
  | writer {answer : Answer} {observation : Observation c} : WriterShows s answer observation → Shows lib s observation
  | admitted {e : Entry c} {result : IngressResult} : Admits s e result → Shows lib s (.admitted e result)
  | refused {input : Input} {result : IngressResult} : result.code.isPlain = true ∨ result.code = .alreadyPending →
      Shows lib s (.refused input result)
  | occupied {input : Input} {result : IngressResult} :
      Occupied s input (State.entryIdentity lib input) result.code result.ingressSequence →
      Shows lib s (.refused input result)
  | stopping {result : IngressResult} : result.code ≠ .admitted → Shows lib s (.refused .shutdown result)
  | taken {k : Fin c.completionCapacity} : (s.book.completions k).completed = true →
      Shows lib s (.taken (s.book.completions k).sequence (s.book.completions k).value)
  | acked {acked : RawCandidateEvent} {identity : GateIdentity} {i : Slot c} :
      prepareGateIdentity lib .worker acked = some identity → s.pool.find acked.jobId = some i →
      (s.pool.gate i .worker).retained = true → (s.pool.gate i .worker).ackAuthorized = true →
      (s.pool.gate i .worker).ingressSequence ≠ 0 → (s.pool.residents i).identitySlots .worker = some identity →
      Shows lib s (.ackRetired acked)

theorem Grows.insert {publish : Entry c → Pool c → Pool c}
    (fine : ∀ f result, f.critical = e.critical → f.sequence = s.nextIngress → f.completionIndex.isSome = true →
      result.code = .admitted → result.ingressSequence = s.nextIngress → allowed (.admitted f result))
    (full : allowed (.refused e.input ⟨.serviceFailed, 0, s.book.total⟩)) : Grows allowed s (s.insert e publish) := by
  rw [State.insert]
  split
  · exact .note rfl full
  · exact .note rfl (fine _ _ rfl rfl rfl rfl rfl)

theorem Enqueued.shows {lib : Libraries} {input : Input} {identities : Option GeneratedIdentityBundle}
    (ended : Enqueued lib s input identities t) : Grows (Shows lib s) s t := by
  cases ended with
  | refused plain => exact .note rfl (.refused (.inl plain))
  | occupied admissible critical held => exact .note rfl (.occupied held)
  | faulted healthy fault => exact .note rfl (.refused (.inl rfl))
  | unleased admissible critical vacant refused plain => exact .note rfl (.refused (.inl plain))
  | normal admissible usual other =>
      apply Grows.insert _ (.refused (.inl rfl))
      intro f result kept sequence placed code answer
      exact .admitted ⟨admissible.healthy, admissible.unsealed, fun _ => admissible.running usual, code,
        answer.trans sequence.symm, sequence, admissible.next, placed⟩
  | @creation i pool admissible usual creation reserved =>
      apply Grows.trans (t := { s with pool }) (.of_eq rfl)
      apply Grows.insert _ (.refused (.inl rfl))
      intro f result kept sequence placed code answer
      exact .admitted ⟨admissible.healthy, admissible.unsealed, fun _ => admissible.running usual, code,
        answer.trans sequence.symm, sequence, admissible.next, placed⟩
  | @critical i kind lease pool admissible critical vacant acquired =>
      apply Grows.trans (t := { s with pool }) (.of_eq rfl)
      apply Grows.insert _ (.refused (.inl rfl))
      intro f result kept sequence placed code answer
      exact .admitted ⟨admissible.healthy, admissible.unsealed, by simp [kept], code,
        answer.trans sequence.symm, sequence, admissible.next, placed⟩

theorem ShutdownSubmitted.shows {lib : Libraries} (ended : ShutdownSubmitted s t) : Grows (Shows lib s) s t := by
  cases ended with
  | refused other => exact .note rfl (.stopping other)
  | faulted healthy fault => exact .note rfl (.refused (.inl rfl))
  | admitted stoppable =>
      apply Grows.insert _ (.refused (.inl rfl))
      intro f result kept sequence placed code answer
      exact .admitted ⟨stoppable.healthy, by simp [stoppable.running], by simp [kept], code,
        answer.trans sequence.symm, sequence, stoppable.next, placed⟩

theorem Produced.shows {lib : Libraries} (produced : Produced lib s t) : Grows (Shows lib s) s t := by
  cases produced with
  | noted creation pending => exact .of_eq rfl
  | refused reason => exact .note rfl (.refused reason)
  | enqueued creation source ended => exact ended.shows.trans (.of_eq rfl)
  | shutdown ended => exact ended.shows
  | leased id event phase => exact .of_eq rfl
  | returned lease => exact .of_eq rfl
  | retained id source => exact .of_eq rfl
  | acked prepared found retained authorized held same =>
      exact .note rfl (.acked prepared found retained authorized held same)
  | latched => exact .of_eq rfl
  | quiesced failed unsealed running => exact .of_eq rfl
  | sealed sealable => exact .of_eq rfl
  | residual sealable left => exact .of_eq rfl
  | stopped sealed => exact .of_eq rfl
  | taken held done number =>
      subst number
      exact .note rfl (.taken done)

theorem step_shows (lib : Libraries) (s : State c) (action : Action c) : Grows (Shows lib s) s (step lib s action) := by
  rcases step_cases lib s action with ⟨answer, taken⟩ | produced
  · rw [taken]
    exact (turned lib s answer).shows.mono fun _ shown => .writer shown
  · exact produced.shows

end Sitometron.Core.Orchestrator
