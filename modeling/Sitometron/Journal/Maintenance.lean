import Mathlib.Data.UInt
import Sitometron.Journal.Segment

/-!
# Offline maintenance

`maintenance.cpp`: a torn tail is moved into a quarantine file, and a prefix of closed segments into `archive/`. A name is
a link to a file, so that a file may have several names.
-/

namespace Sitometron.Journal

open Core

/-! ## The file system -/

inductive EntryKind where
  | none | regularFile | directory | symbolicLink | other
deriving DecidableEq, Repr

/-- A name that is listed: a regular file, or a symbolic link to one. -/
structure Link where
  name : Bytes
  file : Nat
  symbolic : Bool := false
deriving DecidableEq, Repr

/-- A directory. `others` are the entries that are not listed. -/
structure Place where
  files : List Link := []
  others : List (Bytes × EntryKind) := []
deriving DecidableEq, Repr

namespace Place

def names (place : Place) : List Bytes := place.files.map (·.name)

def find (place : Place) (name : Bytes) : Option Link := place.files.find? (·.name = name)

def kind (place : Place) (name : Bytes) : EntryKind :=
  match place.find name with
  | some link => if link.symbolic then .symbolicLink else .regularFile
  | none => (place.others.lookup name).getD .none

end Place

/-- The Journal directory with its `archive/`. `elsewhere` counts the links from other directories, and `fresh` is a file
that no name links to. -/
structure Volume where
  journal : Place
  archive : Option Place := none
  content : Nat → Bytes
  elsewhere : Nat → Nat := fun _ => 0
  fresh : Nat

namespace Volume

def read (v : Volume) (place : Place) (name : Bytes) : Option Bytes := (place.find name).map fun link => v.content link.file

def archived (v : Volume) : Place := v.archive.getD {}

def links (v : Volume) (file : Nat) : Nat :=
  ((v.journal.files ++ v.archived.files).filter fun link => link.file = file && !link.symbolic).length + v.elsewhere file

def directory (v : Volume) : Directory := v.journal.files.map fun link => (link.name, v.content link.file)

def setContent (v : Volume) (file : Nat) (bytes : Bytes) : Volume :=
  { v with content := fun other => if other = file then bytes else v.content other }

def create (v : Volume) (name : Bytes) : Volume :=
  if v.journal.kind name ≠ .none then v
  else { v.setContent v.fresh [] with
    journal := { v.journal with files := v.journal.files ++ [⟨name, v.fresh, false⟩] }
    fresh := v.fresh + 1 }

def archiveName : Bytes := text "archive"

def archiveKind (v : Volume) : EntryKind := if v.archive.isSome then .directory else v.journal.kind archiveName

/-- Moves a name from the Journal directory to `archive/`. -/
def move (v : Volume) (name : Bytes) : Volume :=
  match v.journal.find name with
  | none => v
  | some link =>
      { v with
        journal := { v.journal with files := v.journal.files.filter (·.name ≠ name) }
        archive := some { v.archived with files := v.archived.files ++ [link] } }

end Volume

/-- The answer to one call. `done` says whether a call that failed had its effect, `written` is all bytes where it is
absent, and `unreadable` are the files that a replay failed to read. -/
structure Fault where
  error : IoError := .none
  throws : Bool := false
  done : Bool := false
  written : Option Nat := none
  unreadable : List Bytes := []
deriving DecidableEq, Repr

abbrev Maintenance (ρ : Type) := Script (Volume × ρ) Fault

inductive MaintenanceStatus where
  | done | planned | nothingToDo | refused | failed
deriving DecidableEq, Repr

namespace Maintenance

open Script

variable {ρ α : Type}

def volume : Maintenance ρ Volume := do return (← get).1

def result : Maintenance ρ ρ := do return (← get).2

def setVolume (f : Volume → Volume) : Maintenance ρ Unit := modify fun w => (f w.1, w.2)

def setResult (f : ρ → ρ) : Maintenance ρ Unit := modify fun w => (w.1, f w.2)

def reads (f : Volume → Option α) : Maintenance ρ (Option α) := do
  let fault ← ask
  let v ← volume
  if fault.throws then throw else return if fault.error = .none then f v else none

/-- A call with an effect, which it may also have where it fails. -/
def acts (able : Volume → Bool) (effect : Volume → Volume) : Maintenance ρ IoError := do
  let fault ← ask
  let v ← volume
  let possible := able v
  if possible && (fault.done || (fault.error = .none && !fault.throws)) then setVolume effect
  if fault.throws then throw
  else return if fault.error ≠ .none then fault.error else if possible then .none else .other

def status : Maintenance ρ IoError := do return (← ask).error

def syncData : Maintenance ρ IoError := status
def syncDirectory : Maintenance ρ IoError := status

def lock : Maintenance ρ IoError :=
  acts (fun v => v.journal.kind lockName = .none || v.journal.kind lockName = .regularFile) (·.create lockName)

def list : Maintenance ρ (Option (List Bytes)) := reads fun v => some v.journal.names

def listArchive : Maintenance ρ (Option (List Bytes)) := reads fun v => v.archive.map (·.names)

def readAll (name : Bytes) : Maintenance ρ (Option Bytes) := reads fun v => v.read v.journal name

def entry (name : Bytes) : Maintenance ρ (Option EntryKind) := reads fun v => some (v.journal.kind name)

def entryArchive : Maintenance ρ (Option EntryKind) := reads fun v => some v.archiveKind

def entryArchived (name : Bytes) : Maintenance ρ (Option EntryKind) := reads fun v => some (v.archived.kind name)

def hardLinks (name : Bytes) : Maintenance ρ (Option Nat) := reads fun v => (v.journal.find name).map fun link => v.links link.file

/-- Cuts a regular file with a single name; a cut never extends it. -/
def truncate (name : Bytes) (size : Nat) : Maintenance ρ IoError :=
  acts
    (fun v => (v.journal.find name).any fun link =>
      !link.symbolic && v.links link.file = 1 && size ≤ (v.content link.file).length)
    fun v => match v.journal.find name with
      | none => v
      | some link => v.setContent link.file ((v.content link.file).take size)

def openAppend (name : Bytes) (createNew : Bool) : Maintenance ρ (Option Nat) := do
  let error ← acts (fun v => if createNew then v.journal.kind name = .none else (v.journal.find name).isSome)
    fun v => if createNew then v.create name else v
  let v ← volume
  return if error = .none then (v.journal.find name).map (·.file) else none

structure WriteOutcome where
  written : Nat
  error : IoError

def write (file : Nat) (bytes : Bytes) : Maintenance ρ WriteOutcome := do
  let fault ← ask
  let written := min (fault.written.getD bytes.length) bytes.length
  setVolume fun v => v.setContent file (v.content file ++ bytes.take written)
  return ⟨written, fault.error⟩

def ensureArchive : Maintenance ρ IoError :=
  acts (fun v => v.archiveKind = .directory || v.archiveKind = .none) fun v => { v with archive := some v.archived }

def renameToArchive (name : Bytes) : Maintenance ρ IoError :=
  acts (fun v => v.archive.isSome && v.archived.kind name = .none && (v.journal.find name).isSome) (·.move name)

/-! ## Shared steps -/

def joinPath (directory name : Bytes) : Bytes :=
  if directory = [] || directory.getLast? = some (byte '/') then directory ++ name else directory ++ text "/" ++ name

-- `k_archive_directory` below the Journal directory.
def archivePath (directory : Bytes) : Bytes := joinPath directory Volume.archiveName

def unlimited : Nat := 2 ^ 64 - 1

/-- `ReplayAll` over the listed names and their contents. -/
def replayAll (lib : Libraries) (what : Bytes) (names : Volume → List Bytes) (read : Volume → Bytes → Option Bytes) :
    Maintenance ρ ReplayResult := do
  let fault ← ask
  let v ← volume
  return if fault.throws then ({} : Replayer).refuse .unreadable (text "journal_unreadable: " ++ what)
    else replayJournal lib what unlimited (if fault.error = .none then some (names v) else none)
      fun name => if name ∈ fault.unreadable then none else read v name

def replayDirectory (lib : Libraries) (what : Bytes) : Maintenance ρ ReplayResult :=
  replayAll lib what (·.journal.names) fun v => v.read v.journal

def lockRefusal (directory : Bytes) (error : IoError) : Bytes :=
  if error = .locked then text "journal_locked: " ++ directory else text "journal_unreadable: cannot lock " ++ directory

def failedDetail (step path : Bytes) : Bytes := text "journal_maintenance_failed: " ++ step ++ text " " ++ path

def inDirectory (detail directory : Bytes) : Bytes := detail ++ text " in " ++ directory

/-- One turn of the write loop of `AppendDurably`; `none` where the loop is done. -/
def appendTurn (file : Nat) (path bytes : Bytes) : Maintenance ρ (Bytes ⊕ Option Bytes) := do
  if bytes = [] then return .inr none
  else
    let outcome ← write file bytes
    if outcome.error = .interrupted && outcome.written = 0 then return .inl bytes
    else if outcome.error ≠ .none || outcome.written = 0 then return .inr (some (failedDetail (text "write") path))
    else return .inl (bytes.drop (min outcome.written bytes.length))

/-- Appends to a file of the Journal directory and syncs it; the detail of a failure. -/
def appendDurably (directory name bytes : Bytes) (create : Bool) : Maintenance ρ (Option Bytes) := do
  let path := joinPath directory name
  match ← openAppend name create with
  | none => return some (failedDetail (if create then text "create" else text "open") path)
  | some file =>
      match ← iterate (appendTurn file path) bytes with
      | some failure => return some failure
      | none =>
          if (← syncData) ≠ .none then return some (failedDetail (text "sync") path) else return none

/-- Why an entry may not be changed as a Journal file, empty where it may, and `none` where that cannot be told. -/
def notOwnFile (directory name : Bytes) (singleLink : Bool) : Maintenance ρ (Option Bytes) := do
  let path := joinPath directory name
  match ← entry name with
  | none => return none
  | some kind =>
      if kind ≠ .regularFile then return some (path ++ text " is not a regular file")
      else if !singleLink then return some []
      else match ← hardLinks name with
        | none => return none
        | some links => return some (if links = 1 then [] else path ++ text " has other hard links")

def isSegmentName (name : Bytes) : Bool := segmentPrefix.isPrefixOf name && segmentSuffix.isSuffixOf name

end Maintenance

/-! ## Quarantine -/

structure QuarantineResult where
  status : MaintenanceStatus := .refused
  detail : Bytes := []
  segment : Bytes := []
  offset : Nat := 0
  quarantine : Bytes := []
  bytes : Nat := 0
  nextSequence : UInt64 := 0
  sequenceExhausted : Bool := false
deriving DecidableEq, Repr

namespace Quarantine

open Script Maintenance

abbrev Step := Maintenance QuarantineResult

def finish (status : MaintenanceStatus) (detail : Bytes) : Step QuarantineResult := do
  setResult fun r => { r with status, detail }
  result

def fail (step path : Bytes) : Step (Option QuarantineResult) := do return some (← finish .failed (failedDetail step path))

def holds (name expected : Bytes) : Step Bool := do return (← readAll name) = some expected

def refuseForeign (directory name : Bytes) : Step (Option QuarantineResult) := do
  match ← notOwnFile directory name true with
  | none => fail (text "check") (joinPath directory name)
  | some reason =>
      if reason ≠ [] then return some (← finish .refused (text "journal_quarantine_conflict: " ++ reason)) else return none

def quarantineName (segment : Bytes) (offset : Nat) : Bytes := segment ++ text ".torn-" ++ decimal offset

/-- The greatest of the names that look like segments, and empty without one. -/
def highestSegment (names : List Bytes) : Bytes :=
  names.foldl (fun highest name => if isSegmentName name && highest < name then name else highest) []

/-- Repeats the cut of an earlier run, which changes no byte. The note is empty where there was none. -/
def resyncEarlierCut (directory : Bytes) : Step (Except QuarantineResult Bytes) := do
  match ← list with
  | none => return .error (← finish .failed (failedDetail (text "list") directory))
  | some names =>
      let highest := highestSegment names
      if highest = [] then return .ok []
      else
        let path := joinPath directory highest
        match ← readAll highest with
        | none => return .error (← finish .failed (failedDetail (text "read") path))
        | some content =>
            let quarantine := quarantineName highest content.length
            if quarantine ∉ names then return .ok []
            else match ← refuseForeign directory highest with
              | some refusal => return .error refusal
              | none =>
                  if (← truncate highest content.length) ≠ .none then
                    return .error (← finish .failed (failedDetail (text "truncate") path))
                  else if !(← holds highest content) then
                    return .error (← finish .failed (failedDetail (text "verify cut") path))
                  else if (← syncDirectory) ≠ .none then
                    return .error (← finish .failed (failedDetail (text "sync directory") directory))
                  else
                    setResult fun r => { r with segment := highest, offset := content.length, quarantine }
                    return .ok (text "; synced the cut of " ++ highest ++ text " at byte " ++ decimal content.length)

/-- Makes the quarantine file hold exactly the tail; a file that holds a beginning of it is completed. -/
def writeQuarantine (directory quarantine tail : Bytes) : Step (Option QuarantineResult) := do
  let path := joinPath directory quarantine
  let settle (failure : Option Bytes) : Step (Option QuarantineResult) := do
    match failure with
    | some detail => return some (← finish .failed detail)
    | none =>
        if (← syncDirectory) ≠ .none then fail (text "sync directory") directory else return none
  match ← list with
  | none => fail (text "list") directory
  | some names =>
      if quarantine ∈ names then
        match ← refuseForeign directory quarantine with
        | some refusal => return some refusal
        | none =>
            match ← readAll quarantine with
            | none => fail (text "read") path
            | some existing =>
                if existing.length > tail.length || !existing.isPrefixOf tail then
                  return some (← finish .refused
                    (text "journal_quarantine_conflict: " ++ path ++ text " exists with different bytes"))
                else settle (← appendDurably directory quarantine (tail.drop existing.length) false)
      else settle (← appendDurably directory quarantine tail true)

def cut (lib : Libraries) (what directory : Bytes) (replayed : ReplayResult) : Step QuarantineResult := do
  let segment := replayed.tornSegment
  let offset := replayed.tornOffset
  let quarantine := quarantineName segment offset
  setResult fun r => { r with segment, offset, quarantine }
  let path := joinPath directory segment
  match ← readAll segment with
  | none => finish .failed (failedDetail (text "read") path)
  | some content =>
      if content.length ≤ offset then finish .failed (failedDetail (text "read") path)
      else
        let tail := content.drop offset
        setResult fun r => { r with bytes := tail.length }
        match ← refuseForeign directory segment with
        | some refusal => return refusal
        | none =>
            match ← writeQuarantine directory quarantine tail with
            | some failure => return failure
            | none =>
                -- Only now, with every torn byte in the quarantine file, is the segment cut.
                if (← truncate segment offset) ≠ .none then finish .failed (failedDetail (text "truncate") path)
                else if !(← holds segment (content.take offset)) then finish .failed (failedDetail (text "verify cut") path)
                else
                  let after ← replayDirectory lib what
                  if (after.status ≠ .replayed && after.status ≠ .sequenceExhausted) || after.records ≠ replayed.records then
                    finish .failed (failedDetail (text "verify") (inDirectory after.detail directory))
                  else
                    let sequenceExhausted := decide (after.status = .sequenceExhausted)
                    setResult fun r =>
                      { r with sequenceExhausted, nextSequence := if sequenceExhausted then 0 else after.nextSequence }
                    finish .done (inDirectory (text "journal_quarantined: " ++ segment ++ text " at byte " ++ decimal offset ++
                      text " into " ++ quarantine ++ (if sequenceExhausted then text "; sequence exhausted" else [])) directory)

def run (lib : Libraries) (what directory : Bytes) : Step QuarantineResult := do
  let error ← lock
  if error ≠ .none then finish .refused (lockRefusal directory error)
  else
    let replayed ← replayDirectory lib what
    if replayed.status = .replayed || replayed.status = .sequenceExhausted then
      match ← resyncEarlierCut directory with
      | .error failure => return failure
      | .ok resynced =>
          if replayed.status = .sequenceExhausted then finish .refused (inDirectory (replayed.detail ++ resynced) directory)
          else
            setResult fun r => { r with nextSequence := replayed.nextSequence }
            finish .nothingToDo (text "journal_clean: " ++ directory ++ resynced)
    else if replayed.status ≠ .tornTail then finish .refused (inDirectory replayed.detail directory)
    else cut lib what directory replayed

end Quarantine

def quarantineTornTail (lib : Libraries) (what directory : Bytes) : Quarantine.Step QuarantineResult :=
  Script.rescue (Quarantine.run lib what directory)
    (Quarantine.finish .failed (Maintenance.inDirectory (text "journal_maintenance_failed: " ++ what) directory))

/-! ## Pruning -/

structure PruneResult where
  status : MaintenanceStatus := .refused
  detail : Bytes := []
  segments : List Bytes := []
  records : UInt64 := 0
  jobs : List Uuid := []
  firstRetainedSequence : UInt64 := 0
  nextSequence : UInt64 := 0
  moved : List Bytes := []
  resumed : List Bytes := []
deriving DecidableEq, Repr

namespace Prune

open Script Maintenance

abbrev Step := Maintenance PruneResult

def finish (status : MaintenanceStatus) (detail : Bytes) : Step PruneResult := do
  setResult fun r =>
    if status = .refused || status = .failed then
      { r with status, detail, segments := [], jobs := [], records := 0, firstRetainedSequence := 0 }
    else { r with status, detail }
  result

def fail (step path : Bytes) : Step (Option PruneResult) := do return some (← finish .failed (failedDetail step path))

/-- The prefixes that a Job blocks, as a difference array: from the segment after its first one, up to its last one where
it is closed. -/
def block (highest : Nat) (blocked : List Int) (job : Snapshot × JobSegmentSpan) : List Int :=
  let first := job.2.firstSegment
  let stop := if !isClosed job.1 then highest + 1 else job.2.lastSegment + 1
  if first + 1 < stop then (blocked.modify (first + 1) (· + 1)).modify stop (· - 1) else blocked

/-- The longest prefix and the number of Jobs that block the one just looked at. -/
def lengthen (blocked : List Int) (longest : Nat × Int) (k : Nat) : Nat × Int :=
  let running := longest.2 + blocked.getD k 0
  (if running = 0 then k else longest.1, running)

/-- The number of leading segments in the longest prunable prefix. The highest segment with records stays. -/
def prunableLength (replayed : ReplayResult) : Nat :=
  match replayed.segments.reverse.findIdx? (·.records ≠ 0) with
  | none => 0
  | some back =>
      let highest := replayed.segments.length - back - 1
      let blocked := (replayed.jobs.zip replayed.spans).foldl (block highest) (List.replicate (highest + 2) 0)
      ((List.range (highest + 1)).foldl (lengthen blocked) (0, 0)).1

def contains (detail needle : Bytes) : Bool := detail.tails.any needle.isPrefixOf

/-- Whether a refusal may come from a prune that was interrupted between two moves. -/
def interrupted (r : ReplayResult) : Bool :=
  r.status = .corrupt && contains r.detail (text "record for a Job that was never created")

/-- The archived segments before the first segment of the Journal, in order. -/
def archivedBefore (names archived : List Bytes) : List Bytes :=
  let first := names.foldl (fun first name =>
    if isSegmentName name && (first = [] || name < first) then name else first) []
  (archived.filter fun name => isSegmentName name && name < first).insertionSort (· ≤ ·)

/-- The Journal directory with the archived segments of the run, which are read in place. -/
def replayMerged (lib : Libraries) (what : Bytes) (run : List Bytes) : Step ReplayResult :=
  replayAll lib what (fun v => v.journal.names ++ run) fun v name =>
    if name ∈ run then v.read v.archived name else v.read v.journal name

/-- Looks for the shortest run of archived segments with which the whole replay succeeds. -/
def resume (lib : Libraries) (what : Bytes) (before : List Bytes) : List Nat → Step (Option ReplayResult)
  | [] => return none
  | n :: longer => do
      let run := before.drop (before.length - n)
      let merged ← replayMerged lib what run
      if merged.status = .replayed then
        setResult fun r => { r with resumed := run }
        return some merged
      else if !interrupted merged then return none
      else resume lib what before longer

def replayInterrupted (lib : Libraries) (what : Bytes) (refused : ReplayResult) : Step (Option ReplayResult) := do
  if !interrupted refused then return none
  else
    let names ← list
    let archived ← listArchive
    match names, archived with
    | some names, some archived =>
        let before := archivedBefore names archived
        resume lib what before ((List.range before.length).map (· + 1))
    | _, _ => return none

/-- Syncs the moves of an earlier run, where there is an `archive/`. -/
def syncEarlierMoves (directory : Bytes) : Step (Option PruneResult) := do
  let archive := archivePath directory
  match ← entryArchive with
  | none => fail (text "check") archive
  | some kind =>
      if kind = .none then return none
      else if kind ≠ .directory then
        return some (← finish .refused (text "journal_archive_conflict: " ++ archive ++ text " is not a directory"))
      else if (← syncDirectory) ≠ .none then fail (text "sync directory") archive
      else if (← syncDirectory) ≠ .none then fail (text "sync directory") directory
      else return none

/-- Refuses an entry of the prefix that is not a regular file. -/
def checkSources (directory : Bytes) : List Bytes → Step (Option PruneResult)
  | [] => return none
  | name :: names => do
      match ← notOwnFile directory name false with
      | none => fail (text "check") (joinPath directory name)
      | some reason =>
          if reason ≠ [] then return some (← finish .refused (text "journal_archive_conflict: " ++ reason))
          else checkSources directory names

def checkDestinations (directory : Bytes) : List Bytes → Step (Option PruneResult)
  | [] => return none
  | name :: names => do
      let destination := joinPath (archivePath directory) name
      match ← entryArchived name with
      | none => fail (text "check") destination
      | some kind =>
          if kind ≠ .none then
            return some (← finish .refused (text "journal_archive_conflict: " ++ destination ++ text " already exists"))
          else checkDestinations directory names

def moveSegments (directory : Bytes) : List Bytes → Step (Option PruneResult)
  | [] => return none
  | name :: names => do
      if (← renameToArchive name) ≠ .none then fail (text "rename") (joinPath directory name)
      else
        setResult fun r => { r with moved := r.moved ++ [name] }
        if (← syncDirectory) ≠ .none then fail (text "sync directory") (archivePath directory)
        else if (← syncDirectory) ≠ .none then fail (text "sync directory") directory
        else moveSegments directory names

def archive (directory : Bytes) (segments : List Bytes) : Step (Option PruneResult) := do
  match ← entryArchive with
  | none => fail (text "check") (archivePath directory)
  | some kind =>
      if kind ≠ .none && kind ≠ .directory then
        return some (← finish .refused (text "journal_archive_conflict: " ++ archivePath directory ++
          text " is not a directory"))
      else if (← ensureArchive) ≠ .none then fail (text "archive directory") (archivePath directory)
      else if (← syncDirectory) ≠ .none then fail (text "sync directory") directory
      else match ← checkDestinations directory segments with
        | some refusal => return some refusal
        | none => moveSegments directory segments

def summary (code directory : Bytes) (r : PruneResult) : Bytes :=
  inDirectory (code ++ text ": " ++ decimal r.segments.length ++ text " segments, " ++ decimal r.records.toNat ++
    text " records, " ++ decimal r.jobs.length ++ text " Jobs; replay starts at " ++
    decimal r.firstRetainedSequence.toNat ++
    (if r.resumed = [] then [] else text "; completes an interrupted prune after " ++ decimal r.resumed.length ++
      text " archived segments")) directory

/-- The members that describe a prefix of that length, of which some segments are archived already. -/
def describe (replayed : ReplayResult) (length archived : Nat) (r : PruneResult) : PruneResult :=
  let moving := (replayed.segments.take length).drop archived
  { r with
    segments := moving.map (·.name)
    records := (moving.map (·.records)).sum
    jobs := ((replayed.jobs.zip replayed.spans).filter fun job => job.2.firstSegment < length).map (·.1.jobId)
    firstRetainedSequence := (replayed.segments[length]?.map (·.first)).getD 0 }

def perform (lib : Libraries) (what directory : Bytes) (dryRun : Bool) (replayed : ReplayResult) : Step PruneResult := do
  setResult fun r => { r with nextSequence := replayed.nextSequence }
  let length := prunableLength replayed
  let archived := (← result).resumed.length
  if archived ≠ 0 && length ≤ archived then
    -- The archived run explains the refusal but is not a prunable prefix.
    setResult fun r => { r with resumed := [] }
    finish .refused (inDirectory
      (text "journal_corrupt: archived segments before the Journal are not a prunable prefix") directory)
  else if length = 0 then
    match ← syncEarlierMoves directory with
    | some failure => return failure
    | none => finish .nothingToDo (inDirectory
        (text "journal_nothing_to_prune: no sealed prefix holds only closed Jobs") directory)
  else
    let prefixRecords := ((replayed.segments.take length).map (·.records)).sum
    setResult (describe replayed length archived)
    let planned ← result
    match ← checkSources directory planned.segments with
    | some refusal => return refusal
    | none =>
        if dryRun then finish .planned (summary (text "journal_prune_planned") directory planned)
        else match ← archive directory planned.segments with
          | some failure => return failure
          | none =>
              let after ← replayDirectory lib what
              if after.status ≠ .replayed || after.nextSequence ≠ planned.nextSequence ||
                  after.records + prefixRecords ≠ replayed.records then
                finish .failed (failedDetail (text "verify") (inDirectory after.detail directory))
              else finish .done (summary (text "journal_pruned") directory planned)

def run (lib : Libraries) (what directory : Bytes) (dryRun : Bool) : Step PruneResult := do
  let error ← lock
  if error ≠ .none then finish .refused (lockRefusal directory error)
  else
    let replayed ← replayDirectory lib what
    if replayed.status = .replayed then perform lib what directory dryRun replayed
    else match ← replayInterrupted lib what replayed with
      | none => finish .refused (inDirectory replayed.detail directory)
      | some resumed => perform lib what directory dryRun resumed

end Prune

def pruneClosedPrefix (lib : Libraries) (what directory : Bytes) (dryRun : Bool) : Prune.Step PruneResult :=
  Script.rescue (Prune.run lib what directory dryRun)
    (Prune.finish .failed (Maintenance.inDirectory (text "journal_maintenance_failed: " ++ what) directory))

end Sitometron.Journal
