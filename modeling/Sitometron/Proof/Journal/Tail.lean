import Sitometron.Journal.Maintenance
import Sitometron.Proof.Journal.Capacity

/-!
# Replay of a torn Journal

Where replay reports a torn tail, the highest segment holds complete records and then bytes without a line feed. Replay of
the segment without these bytes goes through the same records.
-/

namespace Sitometron.Journal

open Core

namespace Replayer

variable {lib : Libraries} {maxJobs : Nat} {r : Replayer} {segment : Segment} {offset : Nat} {result : ReplayResult}

def Clean (records : UInt64) : Except Stop Replayer → Prop
  | .ok after => after.result.records = records
  | .error (.refused result) => result.status = .sequenceExhausted ∧ result.records = records
  | .error (.thrown _) => False

theorem replayLine_not_torn {line : Bytes}
    (stopped : r.replayLine lib maxJobs segment offset line = .error (.refused result)) : result.status ≠ .tornTail := by
  have refused (status : ReplayStatus) (detail : Bytes) (other : status ≠ .tornTail) :
      (r.refuse status detail).status ≠ .tornTail := other
  unfold replayLine at stopped
  split at stopped
  next =>
    cases stopped
    exact refused _ _ (by decide)
  next =>
  split at stopped
  next =>
    cases stopped
    exact refused _ _ (by decide)
  next =>
  dsimp only at stopped
  split at stopped
  next => cases stopped
  next =>
    cases stopped
    exact refused _ _ (by decide)
  next =>
  split at stopped
  next => cases stopped
  next =>
    split at stopped
    next =>
      cases stopped
      exact refused _ _ (by decide)
    next => cases stopped

theorem afterExhaustion_torn {highest : Bool} {content : Bytes}
    (torn : (r.afterExhaustion segment highest content offset).status = .tornTail) :
    highest = true ∧ offset ≠ content.length ∧ 0x0A ∉ content.drop offset ∧
      r.afterExhaustion segment highest content offset = r.tornTail segment offset := by
  unfold afterExhaustion at torn ⊢
  split at torn
  next => simp [refuse] at torn
  next more =>
  split at torn
  next rest =>
    rw [if_neg more, if_pos rest]
    simp only [Bool.and_eq_true, Bool.not_eq_true', decide_eq_true_eq] at more rest
    refine ⟨rest.1, fun ends => more ⟨ends, rest.1⟩, ?_, rfl⟩
    simpa using rest.2
  next => simp [refuse] at torn

theorem replayLines_torn {highest : Bool} {content : Bytes} {fuel : Nat}
    (stopped : replayLines lib maxJobs segment highest content fuel offset r = .error (.refused result))
    (torn : result.status = .tornTail) :
    highest = true ∧ result.tornSegment = segment.name ∧ ∃ events tail, content.drop offset = records events ++ tail ∧
      Encodable events ∧ tail ≠ [] ∧ 0x0A ∉ tail ∧ result.tornOffset = offset + (records events).length ∧
      (events = [] → result.records = r.result.records) ∧
      ∀ (cut : Bytes) (turns : Nat), cut.drop offset = records events → cut.length = offset + (records events).length →
        events.length ≤ turns →
        Clean result.records (replayLines lib maxJobs segment highest cut turns offset r) := by
  induction fuel generalizing offset r with
  | zero => cases stopped
  | succ fuel ih =>
      rw [replayLines] at stopped
      split at stopped
      next => cases stopped
      next inside =>
      split at stopped
      next absent =>
        cases stopped
        cases highest with
        | false => simp [refuse] at torn
        | true =>
            refine ⟨rfl, rfl, [], content.drop offset, rfl, by simp [Encodable], ?_, List.idxOf?_eq_none_iff.1 absent, rfl,
              fun _ => rfl, ?_⟩
            · exact List.ne_nil_of_length_pos (by rw [List.length_drop]; omega)
            · intro cut turns _ length _
              have ended : replayLines lib maxJobs segment true cut turns offset r = .ok r := by
                cases turns with
                | zero => rfl
                | succ turns => rw [replayLines, if_pos (show offset ≥ cut.length from length.le)]
              rw [ended]
              rfl
      next length found =>
      cases line : r.replayLine lib maxJobs segment offset ((content.drop offset).take (length + 1)) with
      | error why =>
          rw [line] at stopped
          cases stopped
          exact absurd torn (replayLine_not_torn line)
      | ok middle =>
          rw [line, ok_bind] at stopped
          dsimp only at stopped
          obtain ⟨e, encoded, -⟩ := replayLine_eq_ok line
          have emitted := (encodeRecord_eq_ok_iff.1 encoded).2.1
          have encodable : encodeRecord e = .ok (emit e) := by rw [encoded, emitted]
          rw [← emitted] at line
          have size : length + 1 = (emit e).length := by
            obtain ⟨within, -⟩ := List.findIdx?_eq_some_iff_getElem.1 found
            rw [emitted, List.length_take]
            omega
          have split : content.drop offset = emit e ++ content.drop (offset + (emit e).length) := by
            rw [← List.drop_drop, ← size]
            nth_rewrite 1 [emitted]
            exact (List.take_append_drop _ _).symm
          -- The cut segment goes through the same line.
          have sameLine {cut rest : Bytes} {turns : Nat} (here : cut.drop offset = emit e ++ rest) :
              replayLines lib maxJobs segment highest cut (turns + 1) offset r =
                if middle.last.toNat = uint64Max then
                  .error (.refused (middle.afterExhaustion segment highest cut (offset + (emit e).length)))
                else replayLines lib maxJobs segment highest cut turns (offset + (emit e).length) middle := by
            rw [Ledger.replayLines_record encodable here, line]
            rfl
          have single (es : List LogicalJobEvent) : records (e :: es) = emit e ++ records es := rfl
          rw [Nat.add_assoc, size] at stopped
          split at stopped
          next last =>
            have same := Stop.refused.inj (Except.error.inj stopped)
            rw [← same] at torn
            obtain ⟨high, more, absent, ended⟩ := afterExhaustion_torn torn
            rw [← same, ended]
            refine ⟨high, rfl, [e], content.drop (offset + (emit e).length), by rw [split, records_singleton], ?_, ?_, absent,
              by rw [records_singleton]; rfl, by simp, ?_⟩
            · simpa [Encodable] using encodable
            · intro none
              have within := congrArg List.length split
              rw [none, List.append_nil, List.length_drop] at within
              have := List.drop_eq_nil_iff.1 none
              omega
            · intro cut turns here whole enough
              obtain ⟨turns, rfl⟩ := Nat.exists_eq_add_of_le' enough
              have only : cut.drop offset = emit e ++ [] := by simpa using here
              rw [List.length_singleton, sameLine only, if_pos last, high, afterExhaustion,
                if_pos (by simpa using whole.symm)]
              exact ⟨rfl, rfl⟩
          next going => 
            obtain ⟨high, named, events, tail, rest, encodableRest, nonempty, absent, total, -, pass⟩ := ih stopped
            refine ⟨high, named, e :: events, tail, by rw [split, rest, single, List.append_assoc], ?_, nonempty, absent, ?_, by simp, ?_⟩
            · simpa [Encodable] using ⟨encodable, encodableRest⟩
            · rw [total, single, List.length_append, Nat.add_assoc]
            · intro cut turns here whole enough
              obtain ⟨turns, rfl⟩ := Nat.exists_eq_add_of_le' enough
              rw [List.length_cons, ← Nat.add_assoc, sameLine (by rw [here, single]), if_neg going]
              refine pass cut _ ?_ ?_ (Nat.le_add_left _ _)
              · rw [← List.drop_drop, here, single, List.drop_left]
              · rw [whole, single, List.length_append, Nat.add_assoc]

/-- A Journal without records is valid only from sequence 1 on, so its torn tail cannot be cut from a later segment. -/
def Stranded (result : ReplayResult) : Prop :=
  result.tornOffset = 0 ∧ result.records = 0 ∧ result.tornSegment ≠ segmentName 1

instance (result : ReplayResult) : Decidable (Stranded result) := by unfold Stranded; infer_instance

def AfterCut (result : ReplayResult) (pass : Except Stop Replayer) : Prop :=
  if Stranded result then ∃ refusal, pass = .error (.refused refusal) ∧ refusal.status = .corrupt
  else Clean result.records pass

structure Tear (readAll : Bytes → Option Bytes) (result : ReplayResult) (earlier : List Segment) (last : Segment)
    (events : List LogicalJobEvent) (tail : Bytes) : Prop where
  segment : result.tornSegment = last.name
  offset : result.tornOffset = (records events).length
  read : readAll last.name = some (records events ++ tail)
  encodable : Encodable events
  nonempty : tail ≠ []
  torn : 0x0A ∉ tail
  complete : ∀ s ∈ earlier, ∃ es, es ≠ [] ∧ Encodable es ∧ readAll s.name = some (records es)

theorem replaySegment_torn {highest : Bool} {readAll : Bytes → Option Bytes} (named : segment.name = segmentName segment.first)
    (stopped : r.replaySegment lib maxJobs readAll segment highest = .error (.refused result))
    (torn : result.status = .tornTail) :
    highest = true ∧ ∃ events tail, Tear readAll result [] segment events tail ∧
      ∀ cut, cut segment.name = some (records events) →
        AfterCut result (r.replaySegment lib maxJobs cut segment highest) := by
  unfold replaySegment at stopped
  split at stopped
  next =>
    cases stopped
    simp [refuse] at torn
  next content read =>
  split at stopped
  next =>
    cases stopped
    simp [refuse] at torn
  next expected =>
  split at stopped
  next =>
    cases stopped
    simp [refuse] at torn
  next =>
  split at stopped
  next =>
    cases stopped
    simp [refuse] at torn
  next =>
  obtain ⟨high, own, events, tail, whole, encodable, nonempty, absent, total, none, pass⟩ := replayLines_torn stopped torn
  rw [List.drop_zero] at whole
  rw [Nat.zero_add] at total
  refine ⟨high, events, tail, ⟨own, total, by rw [read, whole], encodable, nonempty, absent, by simp⟩, fun cut held => ?_⟩
  subst high
  have empty := records_isEmpty encodable
  have lines := pass (records events) (records events).length rfl (Nat.zero_add _).symm (Ledger.records_length encodable)
  have first : result.tornSegment ≠ segmentName 1 ↔ segment.first ≠ 1 := by
    rw [own, named]
    exact ⟨fun other same => other (by rw [same]), fun other same => other (segmentName_injective same)⟩
  have stranded : Stranded result ↔ events = [] ∧ r.result.records = 0 ∧ segment.first ≠ 1 := by
    rw [Stranded, first, total, List.length_eq_zero_iff, ← List.isEmpty_iff, empty]
    exact and_congr_right fun alone => by rw [show result.records = r.result.records from none alone]
  by_cases refused : events = [] ∧ r.result.records = 0 ∧ segment.first ≠ 1
  · rw [AfterCut, if_pos (stranded.2 refused), replaySegment, held]
    dsimp only
    rw [if_neg expected, if_neg (by simp), if_pos (by simp [empty.2 refused.1, refused.2])]
    exact ⟨_, rfl, rfl⟩
  · rw [AfterCut, if_neg (mt stranded.1 refused), replaySegment, held]
    dsimp only
    have accepted : ¬((records events).isEmpty && decide (r.result.records = 0) && decide (segment.first ≠ 1)) = true := by
      simp only [Bool.and_eq_true, decide_eq_true_eq, empty, and_assoc]
      exact refused
    rw [if_neg expected, if_neg (by simp), if_neg accepted]
    exact lines

theorem replaySegment_congr {highest : Bool} {readAll other : Bytes → Option Bytes}
    (same : other segment.name = readAll segment.name) :
    r.replaySegment lib maxJobs other segment highest = r.replaySegment lib maxJobs readAll segment highest := by
  unfold replaySegment
  rw [same]

theorem replaySegments_congr {readAll other : Bytes → Option Bytes} {segments : List Segment}
    (same : ∀ s ∈ segments, other s.name = readAll s.name) :
    replaySegments lib maxJobs other segments r = replaySegments lib maxJobs readAll segments r := by
  induction segments generalizing r with
  | nil => rfl
  | cons segment rest ih =>
      rw [replaySegments, replaySegments, replaySegment_congr (same segment List.mem_cons_self)]
      exact congrArg _ (funext fun next => ih fun s member => same s (List.mem_cons_of_mem _ member))

theorem replaySegments_unreadable {readAll other : Bytes → Option Bytes} {segments : List Segment}
    (fewer : ∀ name, other name = none ∨ other name = readAll name) :
    (∃ refusal, replaySegments lib maxJobs other segments r = .error (.refused refusal) ∧ refusal.status = .unreadable) ∨
      replaySegments lib maxJobs other segments r = replaySegments lib maxJobs readAll segments r := by
  induction segments generalizing r with
  | nil => exact .inr rfl
  | cons segment rest ih =>
      rw [replaySegments, replaySegments]
      rcases fewer segment.name with unreadable | same
      · left
        rw [replaySegment, unreadable]
        exact ⟨_, rfl, rfl⟩
      · rw [replaySegment_congr same]
        cases r.replaySegment lib maxJobs readAll segment rest.isEmpty with
        | error stop => exact .inr rfl
        | ok next => exact ih

theorem replaySegments_torn {readAll : Bytes → Option Bytes} {segments : List Segment}
    (named : ∀ s ∈ segments, s.name = segmentName s.first)
    (stopped : replaySegments lib maxJobs readAll segments r = .error (.refused result)) (torn : result.status = .tornTail) :
    ∃ earlier last events tail, segments = earlier ++ [last] ∧ Tear readAll result earlier last events tail ∧
      ∀ cut, (∀ s ∈ earlier, cut s.name = readAll s.name) → cut last.name = some (records events) →
        AfterCut result (replaySegments lib maxJobs cut segments r) := by
  induction segments generalizing r with
  | nil => cases stopped
  | cons segment rest ih =>
      rw [replaySegments] at stopped
      cases one : r.replaySegment lib maxJobs readAll segment rest.isEmpty with
      | error why =>
          rw [one] at stopped
          cases stopped
          obtain ⟨last, events, tail, tear, after⟩ := replaySegment_torn (named segment List.mem_cons_self) one torn
          obtain rfl := List.isEmpty_iff.1 last
          refine ⟨[], segment, events, tail, rfl, tear, fun cut _ held => ?_⟩
          have whole := after cut held
          rw [replaySegments]
          cases pass : r.replaySegment lib maxJobs cut segment [].isEmpty with
          | ok next =>
              rw [pass] at whole
              exact whole
          | error stop =>
              rw [pass] at whole
              exact whole
      | ok middle =>
          rw [one, ok_bind] at stopped
          obtain ⟨es, read, -, nonempty, encodable, -⟩ := replaySegment_eq_ok one
          obtain ⟨earlier, last, events, tail, rfl, tear, after⟩ :=
            ih (fun s member => named s (List.mem_cons_of_mem _ member)) stopped
          refine ⟨segment :: earlier, last, events, tail, rfl, { tear with complete := ?_ }, fun cut agree held => ?_⟩
          · intro s member
            rcases List.mem_cons.1 member with rfl | inside
            · exact ⟨es, fun none => by simpa using nonempty none, encodable, read⟩
            · exact tear.complete s inside
          · rw [replaySegments, replaySegment_congr (agree segment List.mem_cons_self), one, ok_bind]
            exact after cut (fun s inside => agree s (List.mem_cons_of_mem _ inside)) held

end Replayer

section Journals

variable {lib : Libraries} {what : Bytes} {maxJobs : Nat} {names : List Bytes} {readAll : Bytes → Option Bytes}
  {unsorted : List Segment}

namespace Replayer

def conclude (what : Bytes) : Except Stop Replayer → ReplayResult
  | .ok last => last.finish
  | .error (.refused result) => result
  | .error (.thrown state) => state.refuse .unreadable (text "journal_unreadable: " ++ what)

def sortSegments (unsorted : List Segment) : List Segment := unsorted.insertionSort fun a b => a.first ≤ b.first

def starting (segments : List Segment) : Replayer := { expected := (segments.head?.map (·.first)).getD 1 }

end Replayer

open Replayer

theorem replayJournal_listed (listed : segmentsOf names = .ok unsorted) :
    replayJournal lib what maxJobs (some names) readAll =
      conclude what (replaySegments lib maxJobs readAll (sortSegments unsorted) (starting (sortSegments unsorted))) := by
  rw [replayJournal, Replayer.run, listed]
  dsimp only
  rw [← sortSegments, ← starting]
  cases replaySegments lib maxJobs readAll (sortSegments unsorted) (starting (sortSegments unsorted)) with
  | ok last => rfl
  | error stop => cases stop <;> rfl

theorem replayJournal_unlisted {name : Bytes} (listed : segmentsOf names = .error name) :
    (replayJournal lib what maxJobs (some names) readAll).status = .corrupt := by
  rw [replayJournal, Replayer.run, listed]
  rfl

theorem Replayer.AfterCut.concluded {result : ReplayResult} {pass : Except Stop Replayer} (after : AfterCut result pass) :
    if Stranded result then (conclude what pass).status = .corrupt
    else ((conclude what pass).status = .replayed ∨ (conclude what pass).status = .sequenceExhausted) ∧
      (conclude what pass).records = result.records := by
  unfold AfterCut at after
  split at after
  next stranded =>
    obtain ⟨refusal, rfl, corrupt⟩ := after
    rw [if_pos stranded]
    exact corrupt
  next safe =>
    rw [if_neg safe]
    match pass, after with
    | .ok last, same => exact ⟨.inl rfl, same⟩
    | .error (.refused refusal), ⟨exhausted, same⟩ => exact ⟨.inr exhausted, same⟩

theorem replayJournal_torn {result : ReplayResult} (replayed : replayJournal lib what maxJobs (some names) readAll = result)
    (torn : result.status = .tornTail) :
    ∃ unsorted earlier last events tail, segmentsOf names = .ok unsorted ∧ sortSegments unsorted = earlier ++ [last] ∧
      Tear readAll result earlier last events tail ∧
      ∀ cut, (∀ s ∈ earlier, cut s.name = readAll s.name) → cut last.name = some (records events) →
        let after := replayJournal lib what maxJobs (some names) cut
        if Stranded result then after.status = .corrupt
        else (after.status = .replayed ∨ after.status = .sequenceExhausted) ∧ after.records = result.records := by
  cases listed : segmentsOf names with
  | error bad =>
      rw [← replayed, replayJournal_unlisted listed] at torn
      cases torn
  | ok unsorted =>
      have permuted : (sortSegments unsorted).Perm unsorted := List.perm_insertionSort _ _
      have named (s : Segment) (member : s ∈ sortSegments unsorted) : s.name = segmentName s.first :=
        (segmentFirst_eq_some_iff.1 ((segmentsOf_eq_ok listed).2 s (permuted.subset member))).2
      rw [replayJournal_listed listed] at replayed
      cases pass : replaySegments lib maxJobs readAll (sortSegments unsorted) (starting (sortSegments unsorted)) with
      | ok last =>
          rw [← replayed, pass] at torn
          cases torn
      | error stop =>
          cases stop with
          | thrown state =>
              rw [← replayed, pass] at torn
              cases torn
          | refused refusal =>
              obtain rfl : refusal = result := by
                rw [pass] at replayed
                exact replayed
              obtain ⟨earlier, last, events, tail, split, tear, after⟩ := replaySegments_torn named pass torn
              refine ⟨unsorted, earlier, last, events, tail, rfl, split, tear, fun cut agree held => ?_⟩
              rw [replayJournal_listed listed]
              exact (after cut agree held).concluded

open Maintenance in
theorem isSegmentName_of_first {name : Bytes} {first : UInt64} (found : segmentFirst name = some first) :
    isSegmentName name = true := by
  unfold segmentFirst at found
  split at found
  next => cases found
  next shape =>
  simp only [Bool.or_eq_true, not_or, Bool.not_eq_true, Bool.not_eq_false'] at shape
  rw [isSegmentName, shape.1.2, shape.2]
  rfl

open Maintenance in
theorem segmentsOf_filter (names : List Bytes) : segmentsOf (names.filter isSegmentName) = segmentsOf names := by
  induction names with
  | nil => rfl
  | cons name names ih =>
      by_cases looks : isSegmentName name = true
      · rw [List.filter_cons_of_pos looks, segmentsOf, segmentsOf, ih]
      · have other : segmentFirst name = none := by
          by_contra some
          obtain ⟨first, found⟩ := Option.ne_none_iff_exists'.1 some
          exact looks (isSegmentName_of_first found)
        rw [List.filter_cons_of_neg looks, segmentsOf, other]
        exact ih.trans (if_neg looks).symm

open Maintenance in
theorem segmentsOf_looks {unsorted : List Segment} (listed : segmentsOf names = .ok unsorted) {name : Bytes} (member : name ∈ names)
    (looks : isSegmentName name = true) : (segmentFirst name).isSome = true := by
  induction names generalizing unsorted with
  | nil => cases member
  | cons other names ih =>
      rw [segmentsOf] at listed
      cases first : segmentFirst other with
      | none =>
          rw [first] at listed
          dsimp only at listed
          split at listed
          next => cases listed
          next shape =>
            rcases List.mem_cons.1 member with rfl | inside
            · exact absurd looks shape
            · exact ih listed inside
      | some n =>
          rw [first] at listed
          rcases List.mem_cons.1 member with rfl | inside
          · rw [first]
            rfl
          · cases rest : segmentsOf names with
            | error bad => simp [rest, Except.map] at listed
            | ok others => exact ih rest inside

open Maintenance in
theorem replayJournal_congr {others : List Bytes} {other : Bytes → Option Bytes}
    (listed : others.filter isSegmentName = names.filter isSegmentName)
    (same : ∀ name, isSegmentName name = true → other name = readAll name) :
    replayJournal lib what maxJobs (some others) other = replayJournal lib what maxJobs (some names) readAll := by
  have sameList : segmentsOf others = segmentsOf names := by
    rw [← segmentsOf_filter others, listed, segmentsOf_filter]
  cases found : segmentsOf names with
  | error name => simp only [replayJournal, Replayer.run, sameList, found]
  | ok unsorted =>
      rw [replayJournal_listed found, replayJournal_listed (sameList.trans found)]
      refine congrArg (conclude what) (replaySegments_congr fun s member => same s.name ?_)
      have permuted : (sortSegments unsorted).Perm unsorted := List.perm_insertionSort _ _
      exact isSegmentName_of_first ((segmentsOf_eq_ok found).2 s (permuted.subset member))

theorem replayJournal_unreadable {other : Bytes → Option Bytes} (fewer : ∀ name, other name = none ∨ other name = readAll name) :
    (replayJournal lib what maxJobs (some names) other).status = .unreadable ∨
      replayJournal lib what maxJobs (some names) other = replayJournal lib what maxJobs (some names) readAll := by
  cases listed : segmentsOf names with
  | error name =>
      right
      simp only [replayJournal, Replayer.run, listed]
  | ok unsorted =>
      rw [replayJournal_listed listed, replayJournal_listed listed]
      rcases replaySegments_unreadable fewer with ⟨refusal, stopped, unreadable⟩ | same
      · rw [stopped]
        exact .inl unreadable
      · rw [same]
        exact .inr rfl

end Journals

theorem records_last {events : List LogicalJobEvent} (encodable : Encodable events) (nonempty : events ≠ []) :
    (records events).getLast? = some 0x0A := by
  cases events using List.reverseRecOn with
  | nil => exact absurd rfl nonempty
  | append_singleton front last =>
      obtain ⟨line, written, -⟩ := emit_line (encodable last (by simp))
      rw [records_append, records_singleton, written]
      simp

theorem splitLines_torn {tail : Bytes} (nonempty : tail ≠ []) (absent : 0x0A ∉ tail) : splitLines tail = [tail] := by
  induction tail with
  | nil => exact absurd rfl nonempty
  | cons b tail ih =>
      rw [List.mem_cons, not_or] at absent
      rw [splitLines, if_neg (Ne.symm absent.1)]
      cases tail with
      | nil => rfl
      | cons c tail => rw [ih (List.cons_ne_nil _ _) absent.2]

theorem recordsIn_torn (json : JsonLibrary) {events : List LogicalJobEvent} {tail : Bytes} (encodable : Encodable events)
    (nonempty : tail ≠ []) (absent : 0x0A ∉ tail) : recordsIn json (records events ++ tail) = events := by
  have none : recordsIn json tail = [] := by
    rw [recordsIn, splitLines_torn nonempty absent]
    cases decoded : decodeRecord json tail with
    | error why => simp [decoded, Except.toOption]
    | ok e =>
        have encoded := encodeRecord_decoded decoded
        have emitted := (encodeRecord_eq_ok_iff.1 encoded).2.1
        rw [← emitted] at encoded
        obtain ⟨line, written, -⟩ := emit_line encoded
        rw [← emitted, written] at absent
        simp at absent
  rw [recordsIn_append json encodable, none, List.append_nil]

theorem journalRecords_eq (json : JsonLibrary) {directory : Directory} (distinct : directory.names.Nodup) :
    journalRecords json directory =
      ((directory.names.filter fun name => (segmentFirst name).isSome).insertionSort (· ≤ ·)).flatMap fun name =>
        recordsIn json ((directory.read name).getD []) := by
  let file (name : Bytes) : Bytes × Bytes := (name, (directory.read name).getD [])
  have files : segmentFiles directory = (directory.names.filter fun name => (segmentFirst name).isSome).map file := by
    rw [Directory.names, List.filter_map, List.map_map, segmentFiles]
    refine (List.map_id _).symm.trans (List.map_congr_left fun f member => ?_)
    simp [file, Directory.read_of_mem distinct (List.mem_filter.1 member).1]
  have sorted := @List.map_insertionSort _ _ (· ≤ ·) (fun a b : Bytes × Bytes => a.1 ≤ b.1) _ _ file
    (directory.names.filter fun name => (segmentFirst name).isSome) fun _ _ _ _ => Iff.rfl
  rw [journalRecords, sortedSegments, files, ← sorted, List.flatMap_map]

end Sitometron.Journal
