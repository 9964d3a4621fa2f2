import Sitometron.Journal.Replay
import Sitometron.Lib.Script

/-!
# The segment writer

`segment_journal.cpp` over the calls of `file_system.hpp`. What a call of the file system answers is
up to the environment; what it does to the files follows the interface.
-/

namespace Sitometron.Journal

open Core

/-! ## The file system -/

inductive IoError where
  | none | interrupted | noSpace | exists | locked | unsupported | other
deriving DecidableEq, Repr

abbrev Directory := List (Bytes × Bytes)

namespace Directory

def names (directory : Directory) : List Bytes := directory.map (·.1)

def read (directory : Directory) (name : Bytes) : Option Bytes :=
  (directory.find? fun file => file.1 = name).map (·.2)

def create (directory : Directory) (name : Bytes) : Directory :=
  if name ∈ directory.names then directory else directory ++ [(name, [])]

def append (directory : Directory) (name bytes : Bytes) : Directory :=
  directory.map fun file => if file.1 = name then (file.1, file.2 ++ bytes) else file

end Directory

/-- The answer to one call; a call reads the members it has. A failed call that may create a file says
in `made` whether it did. -/
structure Answer where
  error : IoError := .none
  written : Nat := 0
  made : Bool := false
  throws : Bool := false
deriving DecidableEq, Repr

/-- The members of `SegmentJournal`. A handle is the name of its file. -/
structure SegmentJournal where
  lock : Bool := false
  active : Option Bytes := none
  activeSize : UInt64 := 0
  activeDurable : Bool := true
  nextSequence : UInt64 := 0
  opened : Bool := false
  poisoned : Bool := false
  recordStarted : Bool := false
deriving DecidableEq, Repr

structure World where
  directory : Directory
  journal : SegmentJournal := {}
deriving DecidableEq, Repr

abbrev Io := Script World Answer

namespace Io

open Script

def journal : Io SegmentJournal := do return (← get).journal

def setJournal (f : SegmentJournal → SegmentJournal) : Io Unit := modify fun w => { w with journal := f w.journal }

def setFiles (f : Directory → Directory) : Io Unit := modify fun w => { w with directory := f w.directory }

def status : Io IoError := do return (← ask).error

def syncData : Io IoError := status
def syncDirectory : Io IoError := status

def ensureDirectory : Io IoError := do
  let answer ← ask
  if answer.throws then throw else return answer.error

def lock (name : Bytes) : Io IoError := do
  let answer ← ask
  if answer.made || (answer.error = .none && !answer.throws) then setFiles (·.create name)
  if answer.throws then throw else return answer.error

def list : Io (Option (List Bytes)) := do
  let answer ← ask
  let w ← get
  if answer.throws then throw else return if answer.error = .none then some w.directory.names else none

def readAll (name : Bytes) : Io (Option Bytes) := do
  let answer ← ask
  let w ← get
  if answer.throws then throw else return if answer.error = .none then w.directory.read name else none

def openAppend (name : Bytes) (createNew : Bool) : Io (Option Bytes) := do
  let answer ← ask
  let w ← get
  let opens := answer.error = .none && !answer.throws && (name ∈ w.directory.names) != createNew
  if createNew && (opens || answer.made) then setFiles (·.create name)
  if answer.throws then throw else return if opens then some name else none

structure WriteOutcome where
  written : Nat
  error : IoError

/-- A write takes at most the bytes it was given and appends what it took. -/
def write (name bytes : Bytes) : Io WriteOutcome := do
  let answer ← ask
  let written := min answer.written bytes.length
  setFiles (·.append name (bytes.take written))
  return ⟨written, answer.error⟩

end Io

/-! ## Locating the active segment -/

/-- The parser of `segment_journal.cpp`; `replay.cpp` has its own. -/
def segmentFirstSequence (name : Bytes) : Option UInt64 :=
  if name.length ≠ segmentPrefix.length + sequenceDigits + segmentSuffix.length ||
      !segmentPrefix.isPrefixOf name || !segmentSuffix.isSuffixOf name then none
  else do
    let digits := (name.drop segmentPrefix.length).take sequenceDigits
    let value ← digits.foldlM (fun (value : Nat) c =>
      if !(byte '0' ≤ c && c ≤ byte '9') then none
      else if value > (uint64Max - digitValue c) / 10 then none
      else some (value * 10 + digitValue c)) 0
    if value = 0 then none else some (UInt64.ofNat value)

def segmentName (firstSequence : UInt64) : Bytes :=
  segmentPrefix ++ padded sequenceDigits firstSequence.toNat ++ segmentSuffix

def lockName : Bytes := text "journal.lock"

def rfind (c : UInt8) (s : Bytes) : Option Nat := (s.reverse.idxOf? c).map fun i => s.length - 1 - i

/-- The sequence of the last complete record; `none` for an empty content. -/
def lastSequence (json : JsonLibrary) (content : Bytes) : Except Bytes (Option UInt64) :=
  if content = [] then .ok none
  else if content.getLast? ≠ some 0x0A then
    .error (text "journal_torn_tail: active segment ends with a torn record at byte " ++
      decimal (match rfind 0x0A content with
        | none => 0
        | some last => last + 1))
  else
    let record := match rfind 0x0A content.dropLast with
      | none => content
      | some last => content.drop (last + 1)
    match decodeRecord json record with
    | .error (_, detail) => .error (text "last record of the active segment does not decode: " ++ text detail)
    | .ok event => .ok (some event.sequence)

-- An empty `active` says that the next record starts a new segment.
structure Located where
  next : UInt64
  active : Bytes := []
  activeSize : UInt64 := 0

open Io in
/-- The part of `Locate` for an empty highest segment, which must be named for the next sequence. -/
def locateEmpty (json : JsonLibrary) (highest : Segment) (previous : Option Segment) : Io (Except Bytes Located) := do
  let expected : Except Bytes UInt64 ← match previous with
    | none => pure (.ok 1)
    | some segment => do
        let content ← readAll segment.name
        pure (match content.map (lastSequence json) with
          | some (.ok (some last)) => .ok (last + 1)
          | _ => .error (text "segment before the empty active segment is not usable (" ++ segment.name ++ text ")"))
  return expected.bind fun expected =>
    if highest.first ≠ expected then
      .error (text "empty segment " ++ highest.name ++ text " is not named for the next sequence " ++
        decimal expected.toNat)
    else .ok { next := highest.first, active := highest.name }

open Io in
def locate (json : JsonLibrary) (limit : UInt64) : Io (Except Bytes Located) := do
  match ← list with
  | none => return .error (text "cannot list the Journal directory")
  | some names =>
      match segmentsOf names with
      | .error name => return .error (text "malformed segment name " ++ name)
      | .ok unsorted =>
          -- A first sequence determines its name, so ordering by it orders the pairs.
          let segments := (unsorted.insertionSort fun a b => a.first ≤ b.first).reverse
          match segments with
          | [] => return .ok { next := 1 }
          | highest :: sealed =>
              match ← readAll highest.name with
              | none => return .error (text "cannot read the active segment " ++ highest.name)
              | some content =>
                  match lastSequence json content with
                  | .error detail => return .error (detail ++ text " (" ++ highest.name ++ text ")")
                  | .ok none => locateEmpty json highest sealed.head?
                  | .ok (some last) =>
                      if last < highest.first then
                        return .error (text "active segment " ++ highest.name ++ text " holds an earlier sequence")
                      else if last.toNat = uint64Max then return .error (text "Journal sequence is exhausted")
                      -- A full active segment is left sealed.
                      else if UInt64.ofNat content.length ≥ limit then return .ok { next := last + 1 }
                      else return .ok { next := last + 1
                                        active := highest.name
                                        activeSize := UInt64.ofNat content.length }

namespace SegmentJournal

open Script Io

structure OpenResult where
  ok : Bool := false
  detail : Bytes := []
  nextSequence : UInt64 := 0
  activeSegment : Bytes := []
deriving DecidableEq, Repr

def adopt (located : Located) (active : Option Bytes) (j : SegmentJournal) : SegmentJournal :=
  { j with
    active
    activeSize := located.activeSize
    -- An empty adopted segment may be left by a crash before its creation syncs completed.
    activeDurable := active.isNone || located.activeSize > 0
    lock := true
    nextSequence := located.next
    opened := true }

def openLocated (located : Located) : Io OpenResult := do
  let active ← if located.active = [] then pure none else openAppend located.active false
  if located.active ≠ [] && active.isNone then
    return { detail := text "cannot open the active segment " ++ located.active }
  else
    setJournal (adopt located active)
    return { ok := true
             nextSequence := located.next
             activeSegment := if located.active = [] then segmentName located.next else located.active }

def openLocked (json : JsonLibrary) (limit : UInt64) : Io OpenResult := do
  if (← ensureDirectory) ≠ .none then return { detail := text "cannot create the Journal directory" }
  else if (← syncDirectory) ≠ .none then
    return { detail := text "cannot make the Journal directory entry durable" }
  else
    match ← Io.lock lockName with
    | .locked => return { detail := text "Journal directory is locked by another owner" }
    | .none =>
        match ← locate json limit with
        | .error detail => return { detail }
        | .ok located => openLocated located
    | _ => return { detail := text "cannot lock the Journal directory" }

def openJournal (json : JsonLibrary) (what : Bytes) (limit : UInt64) : Io OpenResult := do
  let j ← journal
  if j.opened || j.lock then return { detail := text "journal is already open" }
  else rescue (openLocked json limit) (return { detail := text "cannot open the Journal: " ++ what })

/-! ## Committing -/

def closeActive : Io Unit := setJournal fun j => { j with active := none }

/-- Syncs the file and then its directory entry; the second sync is not tried after a failed first. -/
def syncActive : Io LogicalCommitResult := do
  if (← syncData) ≠ .none then return .definiteFailure
  else if (← syncDirectory) ≠ .none then return .definiteFailure
  else
    setJournal fun j => { j with activeDurable := true }
    return .committed

def startSegment (firstSequence : UInt64) : Io LogicalCommitResult := do
  match ← openAppend (segmentName firstSequence) true with
  | none => return .definiteFailure
  | some handle =>
      setJournal fun j => { j with active := some handle, activeSize := 0, activeDurable := false }
      syncActive

def makeActiveDurable : Io LogicalCommitResult := do
  if (← journal).active.isNone then return .definiteFailure else syncActive

def failedWrite (written : Nat) : LogicalCommitResult :=
  if written = 0 then .definiteFailure else .outcomeUnknown

/-- One turn of the write loop; `none` where the loop is done. -/
def writeTurn (file bytes : Bytes) (written : Nat) : Io (Nat ⊕ Option LogicalCommitResult) := do
  if written < bytes.length then
    let outcome ← write file (bytes.drop written)
    setJournal fun j => { j with activeSize := j.activeSize + UInt64.ofNat outcome.written }
    let written := written + outcome.written
    if outcome.error = .interrupted then return .inl written
    else if outcome.error ≠ .none then return .inr (some (failedWrite written))
    else if outcome.written = 0 then return .inr (some (failedWrite written))
    else return .inl written
  else return .inr none

def writeRecord (file bytes : Bytes) : Io LogicalCommitResult := do
  setJournal fun j => { j with recordStarted := true }
  match ← iterate (writeTurn file bytes) 0 with
  | some failed => return failed
  | none =>
      if (← syncData) ≠ .none then return .outcomeUnknown
      else
        setJournal fun j => { j with nextSequence := j.nextSequence + 1 }
        return .committed

def rotate (limit : UInt64) (event : LogicalJobEvent) (size : Nat) : Io LogicalCommitResult := do
  let j ← journal
  if j.active.isNone || (j.activeSize > 0 && j.activeSize + UInt64.ofNat size > limit) then
    closeActive
    startSegment event.sequence
  else return .committed

def appendRecord (bytes : Bytes) : Io LogicalCommitResult := do
  let j ← journal
  match j.active with
  | none => return .definiteFailure
  | some file =>
      let durable ← if j.activeDurable then pure .committed else makeActiveDurable
      if durable ≠ .committed then return durable else writeRecord file bytes

def commitLocked (limit : UInt64) (event : LogicalJobEvent) : Io LogicalCommitResult := do
  if event.sequence ≠ (← journal).nextSequence then return .definiteFailure
  else match encodeRecord event with
    | .error _ => return .definiteFailure
    | .ok bytes => do
        let started ← rotate limit event bytes.length
        if started ≠ .committed then return started else appendRecord bytes

def poison : Io Unit := setJournal fun j => { j with poisoned := true }

def commit (limit : UInt64) (locks : Bool) (event : LogicalJobEvent) : Io LogicalCommitResult := do
  let j ← journal
  if !locks || !j.opened || j.poisoned then
    poison
    return .definiteFailure
  else
    let classified : Io LogicalCommitResult := do
      setJournal fun j => { j with recordStarted := false }
      let outcome ← commitLocked limit event
      if outcome ≠ .committed then poison
      return outcome
    rescue classified do
      poison
      return if (← journal).recordStarted then .outcomeUnknown else .definiteFailure

/-! ## Runs -/

/-- One call of `Commit` and how the environment answers it. -/
structure CommitCall where
  event : LogicalJobEvent
  locks : Bool := true
  answers : List Answer

/-- The calls in order, with their results. A call that still waits holds the mutex, so none follows it. -/
def commits (limit : UInt64) : List CommitCall → World → World × List (LogicalJobEvent × Exit LogicalCommitResult)
  | [], w => (w, [])
  | call :: calls, w =>
      match commit limit call.locks call.event w call.answers with
      | (.waiting, next, _) => (next, [(call.event, .waiting)])
      | (exit, next, _) =>
          let rest := commits limit calls next
          (rest.1, (call.event, exit) :: rest.2)

def run (json : JsonLibrary) (what : Bytes) (limit : UInt64) (directory : Directory) (opening : List Answer)
    (calls : List CommitCall) : World × List (LogicalJobEvent × Exit LogicalCommitResult) :=
  match openJournal json what limit { directory } opening with
  | (.waiting, w, _) => (w, [])
  | (_, w, _) => commits limit calls w

end SegmentJournal

end Sitometron.Journal
