import Sitometron.Proof.Journal.Ledger

/-!
# The lines of a pass

What a pass has read when a line is replayed: the tables are those of a ledger, and its spans are those of the records read.
-/

namespace Sitometron.Journal

open Core

namespace Replayer

def retiredIn (r t : Replayer) : List Bytes :=
  (r.result.jobs.map (·.jobId.value)).filter fun key => (t.indexOf key).isNone

/-- The lines replayed so far, each with the index of its segment, and the ids of the Jobs retired. `ReplaySegment` reads no
line after the record at `UINT64_MAX`. -/
inductive Pass (lib : Libraries) (maxJobs : Nat) : Replayer → List (Nat × LogicalJobEvent) → List Bytes → Prop
  | start (expected : UInt64) : Pass lib maxJobs { expected } [] []
  | segment {r : Replayer} {seen : List (Nat × LogicalJobEvent)} {retired : List Bytes} (segment : Segment) :
      Pass lib maxJobs r seen retired → segment.first = r.expected →
      Pass lib maxJobs
        { r with result := { r.result with segments := r.result.segments ++ [⟨segment.name, segment.first, 0⟩] } } seen retired
  | line {r t : Replayer} {seen : List (Nat × LogicalJobEvent)} {retired : List Bytes} {segment : Segment} {offset : Nat}
      {line : Bytes} {e : LogicalJobEvent} : Pass lib maxJobs r seen retired → r.result.segments ≠ [] →
      r.last.toNat ≠ uint64Max → decodeRecord lib.json line = .ok e →
      r.replayLine lib maxJobs segment offset line = .ok t →
      Pass lib maxJobs t (seen ++ [(r.result.segments.length - 1, e)]) (retired ++ r.retiredIn t)

end Replayer

def recordsOf (key : Bytes) (seen : List (Nat × LogicalJobEvent)) : List (Nat × LogicalJobEvent) :=
  seen.filter (·.2.jobId.value = key)

theorem recordsOf_append (key : Bytes) (seen : List (Nat × LogicalJobEvent)) (segment : Nat) (e : LogicalJobEvent) :
    recordsOf key (seen ++ [(segment, e)]) =
      recordsOf key seen ++ if e.jobId.value = key then [(segment, e)] else [] := by
  rw [recordsOf, List.filter_append]
  by_cases own : e.jobId.value = key
  · simp [recordsOf, own]
  · simp [recordsOf, own]

namespace Ledger

variable {lib : Libraries} {maxJobs : Nat} {f g : Ledger} {seen : List (Nat × LogicalJobEvent)} {retired : List Bytes}
  {e : LogicalJobEvent}

/-- The records of a resident: those of its id from its creation on, after those of retired Jobs of the same id. -/
def Recorded (seen : List (Nat × LogicalJobEvent)) (retired : List Bytes) (r : Resident) : Prop :=
  ∃ older first own, recordsOf r.id seen = older ++ first :: own ∧ first.2.sequence = r.created ∧
    r.span = ⟨first.1, ((first :: own).getLast (List.cons_ne_nil _ _)).1⟩ ∧ (r.id ∉ retired → older = [])

structure Traced (maxJobs : Nat) (f : Ledger) (seen : List (Nat × LogicalJobEvent)) (retired : List Bytes) : Prop where
  bounded : f.residents.length ≤ maxJobs
  within : ∀ r ∈ f.residents, r.span.firstSegment ≤ r.span.lastSegment ∧ r.span.lastSegment < f.segments.length
  spans : ∀ r ∈ f.residents, Recorded seen retired r
  kept : ∀ entry ∈ seen, entry.2.jobId.value ∉ retired → entry.2.jobId.value ∈ f.residents.map Resident.id

def retiredIn (f g : Ledger) : List Bytes := (f.residents.map Resident.id).filter (· ∉ g.residents.map Resident.id)

theorem replayer_retiredIn (f g : Ledger) : f.replayer.retiredIn g.replayer = f.retiredIn g := by
  rw [Replayer.retiredIn, retiredIn, show f.replayer.result.jobs.map (·.jobId.value) = f.residents.map Resident.id from
    List.map_map]
  apply List.filter_congr
  intro key _
  have absent : g.residents.findIdx? (·.id = key) = none ↔ key ∉ g.residents.map Resident.id := by
    simp [List.findIdx?_eq_none_iff]
  rw [Bool.eq_iff_iff, Option.isNone_iff_eq_none, decide_eq_true_eq]
  exact absent

theorem Traced.revise (traced : Traced maxJobs f seen retired) (opened : f.segments ≠ []) {after : Snapshot}
    (named : after.jobId.value = e.jobId.value) (known : e.jobId.value ∈ f.residents.map Resident.id) :
    Traced maxJobs ((f.revise e.jobId.value after).advance e.sequence) (seen ++ [(f.current, e)]) retired := by
  have some_ : 0 < f.segments.length := List.length_pos_iff.2 opened
  have last : f.current = f.segments.length - 1 := rfl
  constructor
  · show (f.residents.map _).length ≤ maxJobs
    rw [List.length_map]
    exact traced.bounded
  · intro r member
    obtain ⟨old, inside, rfl⟩ := List.mem_map.1 member
    have before := traced.within old inside
    show _ ∧ _ < (f.segments.modify _ _).length
    rw [List.length_modify]
    split
    · simp only [Resident.revise]
      omega
    · exact before
  · intro r member
    obtain ⟨old, inside, rfl⟩ := List.mem_map.1 member
    obtain ⟨older, first, own, records, created, span, fresh⟩ := traced.spans old inside
    rw [Recorded, revise_id named, recordsOf_append, records]
    by_cases same : old.id = e.jobId.value
    · rw [if_pos same, if_pos same.symm]
      refine ⟨older, first, own ++ [(f.current, e)], by simp, created, ?_, fresh⟩
      simp [Resident.revise, span]
    · rw [if_neg same, if_neg (Ne.symm same)]
      exact ⟨older, first, own, List.append_nil _, created, span, fresh⟩
  · intro entry member kept
    show _ ∈ (f.revise e.jobId.value after).residents.map Resident.id
    rw [revise_ids named]
    rcases List.mem_append.1 member with old | new
    · exact traced.kept entry old kept
    · rw [List.mem_singleton.1 new]
      exact known

theorem Traced.place (traced : Traced maxJobs f seen retired) (opened : f.segments ≠ []) {after : Snapshot}
    {residents : List Resident} (named : after.jobId.value = e.jobId.value)
    (unknown : e.jobId.value ∉ f.residents.map Resident.id)
    (placed : place maxJobs Resident.closed f.residents ⟨after, e.sequence, ⟨f.current, f.current⟩⟩ = some residents) :
    Traced maxJobs (Ledger.advance { f with residents } e.sequence) (seen ++ [(f.current, e)])
      (retired ++ f.retiredIn (Ledger.advance { f with residents } e.sequence)) := by
  have some_ : 0 < f.segments.length := List.length_pos_iff.2 opened
  have last : f.current = f.segments.length - 1 := rfl
  have new : (⟨after, e.sequence, ⟨f.current, f.current⟩⟩ : Resident) ∈ residents := by
    rcases place_eq_some.1 placed with ⟨-, rfl⟩ | ⟨-, -, rfl⟩ <;> exact List.mem_append_right _ List.mem_cons_self
  constructor
  · exact (length_of_place placed traced.bounded).1
  · intro r member
    show _ ∧ _ < (f.segments.modify _ _).length
    rw [List.length_modify]
    rcases mem_of_place placed member with old | rfl
    · exact traced.within r old
    · constructor
      · exact le_rfl
      · dsimp only
        omega
  · intro r member
    rw [Recorded, recordsOf_append]
    rcases mem_of_place placed member with old | rfl
    · obtain ⟨older, first, own, records, created, span, fresh⟩ := traced.spans r old
      have other : e.jobId.value ≠ r.id := fun same => unknown (same ▸ List.mem_map_of_mem old)
      rw [records, if_neg other]
      exact ⟨older, first, own, List.append_nil _, created, span, fun kept => fresh fun inside => kept (List.mem_append_left _ inside)⟩
    · rw [show Resident.id ⟨after, e.sequence, ⟨f.current, f.current⟩⟩ = e.jobId.value from named, if_pos rfl]
      refine ⟨_, _, [], rfl, rfl, rfl, fun kept => List.filter_eq_nil_iff.2 fun entry inside own => unknown ?_⟩
      rw [← of_decide_eq_true own] at kept ⊢
      exact traced.kept entry inside fun there => kept (List.mem_append_left _ there)
  · intro entry member kept
    by_contra gone
    rcases List.mem_append.1 member with old | now
    · have there := traced.kept entry old fun inside => kept (List.mem_append_left _ inside)
      exact kept (List.mem_append_right _ (List.mem_filter.2 ⟨there, decide_eq_true gone⟩))
    · rw [List.mem_singleton.1 now, ← named] at gone
      exact gone (List.mem_map_of_mem new)

theorem Traced.step (traced : Traced maxJobs f seen retired) (opened : f.segments ≠ [])
    (stepped : f.step lib maxJobs e = some g) :
    Traced maxJobs g (seen ++ [(f.current, e)]) (retired ++ f.retiredIn g) := by
  obtain ⟨-, ⟨r, after, found, replayed, rfl⟩ | ⟨after, residents, found, replayed, placed, rfl⟩⟩ := step_eq_some.1 stepped
  · have named := congrArg Uuid.value (replayRecord_jobId replayed)
    have none : f.retiredIn ((f.revise e.jobId.value after).advance e.sequence) = [] := by
      apply List.filter_eq_nil_iff.2
      intro key inside
      show ¬decide (key ∉ (f.revise e.jobId.value after).residents.map Resident.id) = true
      rw [revise_ids named]
      simpa using inside
    rw [none, List.append_nil]
    have known := List.mem_map_of_mem (f := Resident.id) (List.mem_of_find?_eq_some found)
    exact traced.revise opened named (id_of_find? found ▸ known)
  · exact traced.place opened (congrArg Uuid.value (replayRecord_jobId replayed)) (not_mem_of_find? found) placed

theorem segments_of_step (stepped : f.step lib maxJobs e = some g) :
    g.segments = f.segments.modify f.current fun segment => { segment with records := segment.records + 1 } := by
  obtain ⟨-, ⟨r, after, -, -, rfl⟩ | ⟨after, residents, -, -, -, rfl⟩⟩ := step_eq_some.1 stepped <;> rfl

end Ledger

namespace Replayer

variable {lib : Libraries} {maxJobs : Nat} {r t : Replayer} {seen : List (Nat × LogicalJobEvent)} {retired : List Bytes}
  {segment : Segment} {offset : Nat} {readAll : Bytes → Option Bytes}

/-- The tables are those of a ledger. Only the record at `UINT64_MAX` may leave a Job that is not older than what comes next. -/
theorem Pass.ledger (pass : Pass lib maxJobs r seen retired) :
    ∃ f : Ledger, r = f.replayer ∧ f.Traced maxJobs seen retired ∧
      (f.residents.map Resident.id).Nodup ∧ (f.residents.Pairwise fun a b => a.created < b.created) ∧
      (r.last.toNat ≠ uint64Max → f.Sound) := by
  induction pass with
  | start expected =>
      have none {p : Resident → Prop} : ∀ r ∈ ([] : List Resident), p r := fun _ inside => absurd inside List.not_mem_nil
      have traced : Ledger.Traced maxJobs { expected } [] [] :=
        ⟨Nat.zero_le _, none, none, fun _ inside => absurd inside List.not_mem_nil⟩
      exact ⟨{ expected }, rfl, traced, List.nodup_nil, .nil, fun _ => ⟨List.nodup_nil, .nil, none⟩⟩
  | segment segment _ _ ih =>
      obtain ⟨f, rfl, traced, distinct, ascending, sound⟩ := ih
      refine ⟨f.openSegment segment, rfl, ?_, distinct, ascending, fun more => (sound more).openSegment segment⟩
      refine ⟨traced.bounded, fun r member => ?_, traced.spans, traced.kept⟩
      have before := traced.within r member
      rw [Ledger.openSegment, List.length_append]
      exact ⟨before.1, Nat.lt_add_right _ before.2⟩
  | line _ opened more decoded replayed ih =>
      obtain ⟨f, rfl, traced, -, -, sound⟩ := ih
      obtain ⟨g, stepped, rfl⟩ := (Ledger.replayLine_eq_ok (sound more) (encodeRecord_decoded decoded)).1 replayed
      have sorted := (sound more).sorted stepped
      rw [Ledger.replayer_retiredIn]
      refine ⟨g, rfl, traced.step opened stepped, sorted.1, sorted.2, fun further => (sound more).step stepped ?_⟩
      rwa [← Ledger.last_of_step stepped]

theorem decoded_of_replayLine {line : Bytes} (replayed : r.replayLine lib maxJobs segment offset line = .ok t) :
    ∃ e, decodeRecord lib.json line = .ok e := by
  rw [replayLine] at replayed
  split at replayed
  next => cases replayed
  next e decoded => exact ⟨e, decoded⟩

theorem Pass.opened {line : Bytes} (pass : Pass lib maxJobs r seen retired) (opened : r.result.segments ≠ [])
    (more : r.last.toNat ≠ uint64Max) (replayed : r.replayLine lib maxJobs segment offset line = .ok t) :
    t.result.segments ≠ [] := by
  obtain ⟨f, rfl, -, -, -, sound⟩ := pass.ledger
  obtain ⟨e, decoded⟩ := decoded_of_replayLine replayed
  obtain ⟨g, stepped, rfl⟩ := (Ledger.replayLine_eq_ok (sound more) (encodeRecord_decoded decoded)).1 replayed
  show g.segments ≠ []
  rw [Ledger.segments_of_step stepped, ← List.length_pos_iff, List.length_modify]
  exact List.length_pos_iff.2 opened

theorem Pass.lines {highest : Bool} {content : Bytes} {fuel : Nat} (pass : Pass lib maxJobs r seen retired)
    (opened : r.result.segments ≠ []) (more : r.last.toNat ≠ uint64Max)
    (replayed : replayLines lib maxJobs segment highest content fuel offset r = .ok t) :
    t.last.toNat ≠ uint64Max ∧ ∃ seen retired, Pass lib maxJobs t seen retired := by
  induction fuel generalizing offset r seen retired with
  | zero =>
      cases replayed
      exact ⟨more, seen, retired, pass⟩
  | succ fuel ih =>
      rw [replayLines] at replayed
      split at replayed
      next =>
        cases replayed
        exact ⟨more, seen, retired, pass⟩
      next =>
      split at replayed
      next => cases replayed
      next length _ =>
      cases line : r.replayLine lib maxJobs segment offset ((content.drop offset).take (length + 1)) with
      | error why =>
          rw [line] at replayed
          cases replayed
      | ok middle =>
          rw [line, ok_bind] at replayed
          dsimp only at replayed
          split at replayed
          next => cases replayed
          next further =>
            obtain ⟨e, decoded⟩ := decoded_of_replayLine line
            exact ih (pass.line opened more decoded line) (pass.opened opened more line) further replayed

theorem Pass.segmentLines {highest : Bool} (pass : Pass lib maxJobs r seen retired) (more : r.last.toNat ≠ uint64Max)
    (replayed : r.replaySegment lib maxJobs readAll segment highest = .ok t) :
    t.last.toNat ≠ uint64Max ∧ ∃ seen retired, Pass lib maxJobs t seen retired := by
  rw [replaySegment] at replayed
  split at replayed
  next => cases replayed
  split at replayed
  next => cases replayed
  next named =>
  split at replayed
  next => cases replayed
  split at replayed
  next => cases replayed
  apply (pass.segment segment (not_not.1 named)).lines _ more replayed
  simp

theorem Pass.segments {segments : List Segment} (pass : Pass lib maxJobs r seen retired) (more : r.last.toNat ≠ uint64Max)
    (replayed : replaySegments lib maxJobs readAll segments r = .ok t) :
    t.last.toNat ≠ uint64Max ∧ ∃ seen retired, Pass lib maxJobs t seen retired := by
  induction segments generalizing r seen retired with
  | nil =>
      cases replayed
      exact ⟨more, seen, retired, pass⟩
  | cons segment rest ih =>
      rw [replaySegments] at replayed
      cases one : r.replaySegment lib maxJobs readAll segment rest.isEmpty with
      | error why =>
          rw [one] at replayed
          cases replayed
      | ok middle =>
          rw [one, ok_bind] at replayed
          obtain ⟨further, seen, retired, next⟩ := pass.segmentLines more one
          exact ih next further replayed

end Replayer

end Sitometron.Journal
