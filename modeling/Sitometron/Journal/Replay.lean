import Sitometron.Core.Reducer
import Sitometron.Journal.Codec
import Mathlib.Data.List.Sort

/-!
# Replay

`replay.cpp`: each record is derived again by the reducer, and the segments of a directory are folded
into the surviving Jobs. The directory listing and the contents of its files are parameters.
-/

namespace Sitometron.Journal

open Core

/-! ## One record -/

/-- Why a record was not replayed; `thrown` where the JSON library would throw. -/
inductive ReplayError where
  | refused (why : String)
  | thrown
deriving DecidableEq, Repr

/-- Empty where the record cannot be encoded, `none` where the source throws. -/
def payloadJson (lib : Libraries) (record : LogicalJobEvent) : Option Bytes :=
  match encodeRecord record with
  | .error _ => some []
  | .ok bytes => do
      let value ← lib.json.parse bytes
      let payload ← value.find (text "payload")
      return lib.json.dump payload

def derive (lib : Libraries) (before : Snapshot) (record : LogicalJobEvent) : Option Decision :=
  match record.eventType with
  | .cancelAccepted | .terminateAccepted =>
      some (decideCommand before
        { schemaVersion := record.schemaVersion
          commandType := if record.eventType = .cancelAccepted then .cancel else .terminate
          jobId := record.jobId
          principalSubject := match record.payload with
            | .principal p => p.principalSubject
            | _ => [] })
  | .timeoutExpired | .lateWorkerEvent =>
      some (decideEvent lib before ⟨record.schemaVersion, record.jobId, record.eventType, record.payload⟩)
  | type =>
      (payloadJson lib record).map fun json =>
        decideCandidate lib before ⟨record.schemaVersion, record.jobId, type.toText, json⟩

def replayStart (before : Option Snapshot) (record : LogicalJobEvent) : Except String Snapshot :=
  if record.eventType = .jobCreated then
    if before.any (·.entityExists) then .error "job_created for an existing Job"
    else .ok (initialSnapshot record.jobId (match record.payload with
      | .jobCreated created => created.sessionId
      | _ => record.jobId))
  else match before with
    | some s => if s.entityExists then .ok s else .error "record for a Job that was never created"
    | none => .error "record for a Job that was never created"

def replayRecord (lib : Libraries) (before : Option Snapshot) (record : LogicalJobEvent) :
    Except ReplayError Snapshot :=
  match replayStart before record with
  | .error why => .error (.refused why)
  | .ok current =>
      match derive lib current record with
      | none => .error .thrown
      | some (.error _) => .error (.refused "the reducer rejects the record")
      | some (.ok proposal) =>
          let derived : LogicalJobEvent :=
            { schemaVersion := proposal.schemaVersion
              sequence := record.sequence
              eventType := proposal.eventType
              recordedAt := record.recordedAt
              jobId := proposal.jobId
              payload := proposal.payload }
          match encodeRecord derived, encodeRecord record with
          | .ok derivedBytes, .ok recordBytes =>
              if derivedBytes ≠ recordBytes then .error (.refused "the reducer derives a different record")
              else
                let applied := apply lib current proposal
                if applied.rejection.isSome then .error (.refused "the reducer rejects applying the record")
                else .ok applied.snapshot
          | _, _ => .error (.refused "the reducer derives a different record")

/-! ## A directory -/

inductive ReplayStatus where
  | replayed | tornTail | corrupt | capacityExceeded | sequenceExhausted | unreadable
deriving DecidableEq, Repr

structure ReplayedSegment where
  name : Bytes
  first : UInt64
  records : UInt64
deriving DecidableEq, Repr

structure JobSegmentSpan where
  firstSegment : Nat
  lastSegment : Nat
deriving DecidableEq, Repr

structure ReplayResult where
  status : ReplayStatus := .corrupt
  detail : Bytes := []
  nextSequence : UInt64 := 0
  records : UInt64 := 0
  jobs : List Snapshot := []
  createdSequences : List UInt64 := []
  unresolved : List Uuid := []
  segments : List ReplayedSegment := []
  spans : List JobSegmentSpan := []
  tornSegment : Bytes := []
  tornOffset : Nat := 0
deriving DecidableEq, Repr

structure Segment where
  first : UInt64
  name : Bytes
deriving DecidableEq, Repr

def segmentPrefix : Bytes := text "journal-"
def segmentSuffix : Bytes := text ".ndjson"
def sequenceDigits : Nat := 20
def uint64Max : Nat := 2 ^ 64 - 1

def segmentFirst (name : Bytes) : Option UInt64 :=
  if name.length ≠ segmentPrefix.length + sequenceDigits + segmentSuffix.length ||
      !segmentPrefix.isPrefixOf name || !segmentSuffix.isSuffixOf name then none
  else do
    let value ← ((name.drop segmentPrefix.length).take sequenceDigits).foldlM (fun (value : Nat) c =>
      if !isDigit c then none
      else if value > (uint64Max - digitValue c) / 10 then none
      else some (value * 10 + digitValue c)) 0
    if value = 0 then none else some (UInt64.ofNat value)

-- A name that looks like a segment and is none may hide records; every other name is ignored.
def segmentsOf : List Bytes → Except Bytes (List Segment)
  | [] => .ok []
  | name :: names =>
      match segmentFirst name with
      | some first => (segmentsOf names).map (⟨first, name⟩ :: ·)
      | none =>
          if segmentPrefix.isPrefixOf name && segmentSuffix.isSuffixOf name then .error name
          else segmentsOf names

-- indexOf maps a Job id to its position in jobs.
structure Replayer where
  result : ReplayResult := {}
  indexOf : Bytes → Option Nat := fun _ => none
  expected : UInt64 := 1
  last : UInt64 := 0

/-- What ends a pass early: a refusal, or an exception that `ReplayJournal` catches. -/
inductive Stop where
  | refused (result : ReplayResult)
  | thrown (state : Replayer)

namespace Replayer

def refuse (r : Replayer) (status : ReplayStatus) (detail : Bytes) : ReplayResult :=
  { r.result with
    status, detail
    jobs := []
    createdSequences := []
    unresolved := []
    segments := []
    spans := [] }

def location (segment : Bytes) (sequence : UInt64) : Bytes :=
  text " at " ++ segment ++ text " sequence " ++ decimal sequence.toNat

def erase (r : Replayer) (victim : Nat) : Replayer :=
  let id := (r.result.jobs[victim]?).map (·.jobId.value)
  { r with
    result := { r.result with
      jobs := r.result.jobs.eraseIdx victim
      spans := r.result.spans.eraseIdx victim
      createdSequences := r.result.createdSequences.eraseIdx victim }
    indexOf := fun key => if some key = id then none
      else (r.indexOf key).map fun index => if index > victim then index - 1 else index }

def append (r : Replayer) (record : LogicalJobEvent) (after : Snapshot) : Replayer :=
  let position := r.result.jobs.length
  let segment := r.result.segments.length - 1
  { r with
    result := { r.result with
      jobs := r.result.jobs ++ [after]
      createdSequences := r.result.createdSequences ++ [record.sequence]
      spans := r.result.spans ++ [⟨segment, segment⟩] }
    indexOf := fun key => if key = record.jobId.value ∧ r.indexOf key = none then some position
      else r.indexOf key }

def update (r : Replayer) (position : Nat) (after : Snapshot) : Replayer :=
  let segment := r.result.segments.length - 1
  { r with
    result := { r.result with
      jobs := r.result.jobs.set position after
      spans := r.result.spans.modify position fun span => { span with lastSegment := segment } } }

def advance (r : Replayer) (sequence : UInt64) : Replayer :=
  { r with
    last := sequence
    expected := if sequence.toNat ≠ uint64Max then sequence + 1 else r.expected
    result := { r.result with
      records := r.result.records + 1
      segments := r.result.segments.modify (r.result.segments.length - 1) fun segment =>
        { segment with records := segment.records + 1 } } }

-- `none` where the limit is reached and every Job is still open.
def makeRoom (r : Replayer) (maxJobs : Nat) : Option Replayer :=
  if r.result.jobs.length ≥ maxJobs then
    (oldestClosed r.result.jobs.length (fun i => r.result.jobs[i]?)
      (fun i => r.result.createdSequences.getD i 0)).map r.erase
  else some r

def replayLine (lib : Libraries) (maxJobs : Nat) (r : Replayer) (segment : Segment) (offset : Nat)
    (line : Bytes) : Except Stop Replayer :=
  match decodeRecord lib.json line with
  | .error (_, detail) =>
      .error (.refused (r.refuse .corrupt (text "journal_corrupt: " ++ segment.name ++ text " byte " ++
        decimal offset ++ text ": " ++ text detail)))
  | .ok record =>
      if record.sequence ≠ r.expected then
        .error (.refused (r.refuse .corrupt (text "journal_corrupt: expected sequence " ++
          decimal r.expected.toNat ++ location segment.name record.sequence)))
      else
        let found := r.indexOf record.jobId.value
        match replayRecord lib (found.bind fun i => r.result.jobs[i]?) record with
        | .error .thrown => .error (.thrown r)
        | .error (.refused why) =>
            .error (.refused (r.refuse .corrupt (text "journal_corrupt: " ++ text why ++
              location segment.name record.sequence)))
        | .ok after =>
            match found with
            | some position => .ok ((r.update position after).advance record.sequence)
            | none =>
                match r.makeRoom maxJobs with
                | none =>
                    .error (.refused (r.refuse .capacityExceeded
                      (text "journal_capacity_exceeded: more than " ++ decimal maxJobs ++ text " Jobs" ++
                        location segment.name record.sequence)))
                | some room => .ok ((room.append record after).advance record.sequence)

def tornTail (r : Replayer) (segment : Segment) (offset : Nat) : ReplayResult :=
  { r with result := { r.result with tornSegment := segment.name, tornOffset := offset } }.refuse .tornTail
    (text "journal_torn_tail: " ++ segment.name ++ text " at byte " ++ decimal offset)

def afterExhaustion (r : Replayer) (segment : Segment) (highest : Bool) (content : Bytes) (offset : Nat) :
    ReplayResult :=
  if offset = content.length && highest then
    r.refuse .sequenceExhausted (text "journal_sequence_exhausted" ++ location segment.name r.last)
  else if highest && !(content.drop offset).contains 0x0A then r.tornTail segment offset
  else r.refuse .corrupt (text "journal_corrupt: record after UINT64_MAX in " ++ segment.name ++
    text " at byte " ++ decimal offset)

-- Every turn of the source's loop consumes a line feed, so the content's length is enough fuel.
def replayLines (lib : Libraries) (maxJobs : Nat) (segment : Segment) (highest : Bool) (content : Bytes) :
    Nat → Nat → Replayer → Except Stop Replayer
  | 0, _, r => .ok r
  | fuel + 1, offset, r =>
      if offset ≥ content.length then .ok r
      else match (content.drop offset).idxOf? 0x0A with
        | none =>
            .error (.refused (if highest then r.tornTail segment offset
              else r.refuse .corrupt (text "journal_corrupt: " ++ segment.name ++
                text " ends without LF at byte " ++ decimal offset)))
        | some length => do
            let next ← r.replayLine lib maxJobs segment offset ((content.drop offset).take (length + 1))
            let offset := offset + length + 1
            if next.last.toNat = uint64Max then
              .error (.refused (next.afterExhaustion segment highest content offset))
            else replayLines lib maxJobs segment highest content fuel offset next

def replaySegment (lib : Libraries) (maxJobs : Nat) (readAll : Bytes → Option Bytes) (r : Replayer)
    (segment : Segment) (highest : Bool) : Except Stop Replayer :=
  match readAll segment.name with
  | none => .error (.refused (r.refuse .unreadable (text "journal_unreadable: " ++ segment.name)))
  | some content =>
      if segment.first ≠ r.expected then
        .error (.refused (r.refuse .corrupt (text "journal_corrupt: segment " ++ segment.name ++
          text " is not named for sequence " ++ decimal r.expected.toNat)))
      else if content.isEmpty && !highest then
        .error (.refused (r.refuse .corrupt (text "journal_corrupt: empty segment " ++ segment.name ++
          text " is not the highest")))
      -- Pruning keeps the highest non-empty segment, so only a fresh Journal is without records.
      else if content.isEmpty && r.result.records = 0 && segment.first ≠ 1 then
        .error (.refused (r.refuse .corrupt (text "journal_corrupt: empty segment " ++ segment.name ++
          text " without records is not named for sequence 1")))
      else
        let opened := { r with result := { r.result with
          segments := r.result.segments ++ [⟨segment.name, segment.first, 0⟩] } }
        replayLines lib maxJobs segment highest content content.length 0 opened

def replaySegments (lib : Libraries) (maxJobs : Nat) (readAll : Bytes → Option Bytes) :
    List Segment → Replayer → Except Stop Replayer
  | [], r => .ok r
  | segment :: rest, r => do
      let next ← r.replaySegment lib maxJobs readAll segment rest.isEmpty
      replaySegments lib maxJobs readAll rest next

def finish (r : Replayer) : ReplayResult :=
  { r.result with
    status := .replayed
    nextSequence := r.expected
    unresolved := (r.result.jobs.filter isUnresolved).map (·.jobId) }

def run (lib : Libraries) (maxJobs : Nat) (list : Option (List Bytes)) (readAll : Bytes → Option Bytes) :
    Except Stop ReplayResult :=
  let start : Replayer := {}
  match list with
  | none => .error (.refused (start.refuse .unreadable (text "journal_unreadable: list")))
  | some names =>
      match segmentsOf names with
      | .error name =>
          .error (.refused (start.refuse .corrupt (text "journal_corrupt: malformed segment name " ++ name)))
      | .ok unsorted => do
          let segments := unsorted.insertionSort fun a b => a.first ≤ b.first
          let expected := (segments.head?.map (·.first)).getD 1
          let last ← replaySegments lib maxJobs readAll segments { start with expected }
          return last.finish

end Replayer

/-- `what` is the text of an exception of the JSON library. -/
def replayJournal (lib : Libraries) (what : Bytes) (maxJobs : Nat) (list : Option (List Bytes))
    (readAll : Bytes → Option Bytes) : ReplayResult :=
  match Replayer.run lib maxJobs list readAll with
  | .ok result => result
  | .error (.refused result) => result
  | .error (.thrown state) => state.refuse .unreadable (text "journal_unreadable: " ++ what)

end Sitometron.Journal
