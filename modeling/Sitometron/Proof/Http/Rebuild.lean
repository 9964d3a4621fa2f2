import Sitometron.Proof.Http.ContentLength
import Sitometron.Proof.Http.Lines

/-!
# The rebuilt header

`ParseHeader` reads the lines of the header once into fields and once more to rebuild them. Over every header that `ReadHeader`
hands on and `ParseHeader` accepts, the rebuilt lines are the request line, the field lines that are kept and the lines that say
how the body is framed.
-/

namespace Sitometron.Http

open Grammar Search

theorem cut_some {c : UInt8} {s a b : Bytes} (found : cut c s = some (a, b)) : s = a ++ c :: b ∧ c ∉ a := by
  induction s generalizing a with
  | nil => cases found
  | cons d s ih =>
      rw [cut] at found
      split at found
      next same =>
        cases found
        exact ⟨by rw [same]; rfl, by simp⟩
      next other =>
        obtain ⟨⟨x, y⟩, rest, joined⟩ := Option.map_eq_some_iff.1 found
        cases joined
        obtain ⟨split, outside⟩ := ih rest
        exact ⟨by rw [split]; rfl, by simp [outside, Ne.symm other]⟩

theorem parseRequestLine_ok {isV6 : Bytes → Bool} {options : Options} {first : Bytes} {line : RequestLine}
    (parsed : parseRequestLine isV6 options first = .ok line) :
    first = line.method ++ text " " ++ line.target ++ text " " ++ line.version := by
  unfold parseRequestLine at parsed
  cases before : cut (byte ' ') first with
  | none =>
      rw [before] at parsed
      cases parsed
  | some parts =>
      obtain ⟨method, rest⟩ := parts
      rw [before] at parsed
      dsimp only at parsed
      cases after : cut (byte ' ') rest with
      | none =>
          rw [after] at parsed
          cases parsed
      | some parts =>
          obtain ⟨target, version⟩ := parts
          rw [after] at parsed
          dsimp only at parsed
          split at parsed
          · cases parsed
          split at parsed
          · cases parsed
          split at parsed
          · cases parsed
          cases parsed
          obtain ⟨whole, -⟩ := cut_some before
          obtain ⟨remainder, -⟩ := cut_some after
          have space : text " " = [byte ' '] := rfl
          rw [whole, remainder, space]
          simp

def fieldOf (line : Bytes) : Option HeaderField :=
  match cut (byte ':') line with
  | none => none
  | some (name, value) => if isToken name then some ⟨lower name, value⟩ else none

theorem addLine_normalized (s : FieldState) (line : Bytes) : (s.addLine line).normalized = s.normalized ++ (line ++ crlf) := by
  unfold FieldState.addLine
  dsimp only
  cases cut (byte ':') line with
  | none => exact List.append_assoc _ _ _
  | some parts =>
      dsimp only
      split <;> exact List.append_assoc _ _ _

theorem addLine_fields (s : FieldState) (line : Bytes) : (s.addLine line).fields = s.fields ++ (fieldOf line).toList := by
  unfold FieldState.addLine fieldOf
  dsimp only
  cases cut (byte ':') line with
  | none => simp
  | some parts =>
      dsimp only
      split <;> simp

def isFolded (line : Bytes) : Bool := isOws (line.headD 0)

def readLines : FieldState → List Bytes → Except EarlyError FieldState
  | s, [] => .ok s
  | s, line :: lines =>
      if isFolded line then if s.haveField then .error .malformed else readLines s lines else readLines (s.addLine line) lines

theorem readLines_ok {s r : FieldState} {lines : List Bytes} (read : readLines s lines = .ok r) :
    r.normalized = s.normalized ++ unlines (lines.filter fun line => !isFolded line) ∧
      r.fields = s.fields ++ (lines.filter fun line => !isFolded line).filterMap fieldOf := by
  induction lines generalizing s with
  | nil =>
      cases read
      simp [unlines]
  | cons line lines ih =>
      rw [readLines] at read
      split at read
      next folded =>
        split at read
        · cases read
        · rw [List.filter_cons_of_neg (by simp [folded])]
          exact ih read
      next plain =>
        obtain ⟨normalized, fields⟩ := ih read
        rw [List.filter_cons_of_pos (by simpa using plain), normalized, fields, addLine_normalized, addLine_fields]
        constructor
        · simp [unlines]
        · cases field : fieldOf line <;> simp [field]

theorem length_le_unlines (lines : List Bytes) : lines.length ≤ (unlines lines).length := by
  induction lines with
  | nil => exact Nat.zero_le _
  | cons l lines ih =>
      rw [unlines_cons]
      simp only [List.length_append, List.length_cons]
      have crlfLength : crlf.length = 2 := rfl
      omega

theorem line_at {before l after : Bytes} (inline : 0x0A ∉ l) :
    find (before ++ (l ++ (crlf ++ after))) crlf before.length = some (before.length + l.length) ∧
      ((before ++ (l ++ (crlf ++ after))).drop before.length).take (before.length + l.length - before.length) = l ∧
      before.length + l.length + 2 = (before ++ (l ++ crlf)).length := by
  refine ⟨find_crlf inline, ?_, ?_⟩
  · rw [List.drop_left, Nat.add_sub_cancel_left, List.take_left]
  · have crlfLength : crlf.length = 2 := rfl
    simp only [List.length_append, crlfLength]
    omega

theorem readFields_lines {before body : Bytes} {lines : List Bytes} {headerEnd fuel : Nat} {s : FieldState}
    (ends : (before ++ unlines lines).length = headerEnd + 2) (each : ∀ l ∈ lines, IsLine l) (enough : lines.length ≤ fuel) :
    readFields (before ++ (unlines lines ++ (crlf ++ body))) headerEnd fuel before.length s = readLines s lines := by
  induction lines generalizing before fuel s with
  | nil =>
      have beyond : ¬before.length < headerEnd := by
        simp only [unlines, List.flatMap_nil, List.append_nil] at ends
        omega
      cases fuel with
      | zero => rfl
      | succ fuel => rw [readFields, if_neg beyond, readLines]
  | cons l lines ih =>
      obtain ⟨fuel, rfl⟩ := Nat.exists_eq_add_of_le' (Nat.le_trans (Nat.succ_le_succ (Nat.zero_le _)) enough)
      have line := each l List.mem_cons_self
      obtain ⟨found, text, next⟩ := @line_at before l (unlines lines ++ (crlf ++ body)) line.inline
      have positive := List.length_pos_iff.2 line.nonempty
      have inside : before.length < headerEnd ∧ ¬before.length + l.length > headerEnd := by
        have crlfLength : crlf.length = 2 := rfl
        simp only [unlines_cons, List.length_append, crlfLength] at ends
        omega
      have shape : before ++ (unlines (l :: lines) ++ (crlf ++ body)) =
          before ++ (l ++ (crlf ++ (unlines lines ++ (crlf ++ body)))) := by simp [unlines_cons]
      have shifted : before ++ (l ++ (crlf ++ (unlines lines ++ (crlf ++ body)))) =
          before ++ (l ++ crlf) ++ (unlines lines ++ (crlf ++ body)) := by simp
      have ends' : (before ++ (l ++ crlf) ++ unlines lines).length = headerEnd + 2 := by
        rw [← ends, unlines_cons]
        simp
      have go (s : FieldState) : readFields (before ++ (l ++ (crlf ++ (unlines lines ++ (crlf ++ body))))) headerEnd fuel
          (before.length + l.length + 2) s = readLines s lines := by
        rw [next, shifted]
        exact ih ends' (fun d member => each d (List.mem_cons_of_mem l member)) (Nat.le_of_succ_le_succ enough)
      rw [shape, readFields, if_pos inside.1, found]
      dsimp only
      rw [if_neg inside.2, text]
      obtain ⟨c, l, rfl⟩ := List.exists_cons_of_ne_nil line.nonempty
      dsimp only
      rw [go, go, readLines]
      rfl

theorem leading_line {l : Bytes} (line : IsLine l) (n : Nat) (rest : Bytes) : leading n (l ++ (crlf ++ rest)) = 0 := by
  obtain ⟨c, l, rfl⟩ := List.exists_cons_of_ne_nil line.nonempty
  have feed : c ≠ byte '\n' := fun same => line.inline (by simp [same, byte])
  have next : ¬(c = byte '\r' && (l ++ (crlf ++ rest)).headD 0 = byte '\n') = true := by
    rw [Bool.and_eq_true, not_and, decide_eq_true_eq]
    intro _
    cases l with
    | nil => exact Bool.false_ne_true
    | cons d l =>
        intro same
        have second : d = byte '\n' := by simpa using same
        exact line.inline (by simp [second, byte])
  rcases n with - | - | n
  · rfl
  · rw [List.cons_append, leading, if_neg feed]
  · rw [List.cons_append, leading, if_neg next, if_neg feed]

section Accepted

variable {isV6 : Bytes → Bool} {bytes body first : Bytes} {rest : List Bytes} {headerEnd firstEnd : Nat} {options : Options}
  {request : RequestInfo} {line : RequestLine} {read : FieldState}

theorem Accepted.lines (accepted : Accepted isV6 bytes headerEnd options request firstEnd line read)
    (lines : HasLines bytes headerEnd (first :: rest) body) :
    first = line.method ++ text " " ++ line.target ++ text " " ++ line.version ∧
      read.normalized = unlines (line.normalized :: rest.filter fun l => !isFolded l) ∧
      read.fields = (rest.filter fun l => !isFolded l).filterMap fieldOf := by
  have line' := lines.each first List.mem_cons_self
  have shape : bytes = first ++ (crlf ++ (unlines rest ++ (crlf ++ body))) := by
    rw [lines.bytes, unlines_cons]
    simp
  have start : leading headerEnd bytes = 0 := by
    rw [shape]
    exact leading_line line' _ _
  have found : find bytes crlf 0 = some first.length := by
    have here := @find_crlf [] first (unlines rest ++ (crlf ++ body)) line'.inline
    rw [List.nil_append, List.length_nil, Nat.zero_add] at here
    rwa [shape]
  have ends : firstEnd = first.length := by
    have same := accepted.found
    rw [start, found] at same
    exact (Option.some.inj same).symm
  have parsed := accepted.parsed
  rw [start, ends, List.drop_zero, Nat.sub_zero, shape, List.take_left] at parsed
  have whole := parseRequestLine_ok parsed
  have fieldsRead := accepted.fieldsRead
  have position : firstEnd + 2 = (first ++ crlf).length := by
    rw [ends, List.length_append]
    rfl
  have shape' : bytes = first ++ crlf ++ (unlines rest ++ (crlf ++ body)) := by
    rw [shape]
    simp
  have length : (first ++ crlf ++ unlines rest).length = headerEnd + 2 := by
    rw [← lines.end_, unlines_cons]
    simp
  have enough : rest.length ≤ headerEnd := by
    have few := length_le_unlines rest
    have positive := List.length_pos_iff.2 line'.nonempty
    have crlfLength : crlf.length = 2 := rfl
    simp only [List.length_append, crlfLength] at length
    omega
  rw [position, shape', readFields_lines length (fun l member => lines.each l (List.mem_cons_of_mem first member)) enough] at fieldsRead
  obtain ⟨normalized, fields⟩ := readLines_ok fieldsRead
  refine ⟨whole, ?_, ?_⟩
  · rw [normalized, unlines_cons, List.append_assoc]
  · rw [fields, List.nil_append]

theorem Accepted.canonical (accepted : Accepted isV6 bytes headerEnd options request firstEnd line read) :
    (canonicalLength options (readLengths (valuesOf request.fields "content-length"))).isSome =
        (request.contentLength.isSome || request.contentLengthOverflow) ∧
      ∀ n, request.contentLength = some n →
        canonicalLength options (readLengths (valuesOf request.fields "content-length")) = some (decimal n.toNat) := by
  obtain ⟨s, summed, lengths⟩ := summed_readLengths request.fields "content-length"
  rw [accepted.length, accepted.overflow, lengths]
  generalize membersOf request.fields "content-length" = items at summed
  cases summed with
  | none => simp [canonicalLength]
  | fits agree => simp [canonicalLength]
  | large agree big => simp [canonicalLength]
  | invalid bad _ differ =>
      rw [if_pos bad]
      simp [canonicalLength, bad]

end Accepted

section Claim

variable {isV6 : Bytes → Bool} {bytes body first : Bytes} {rest : List Bytes} {headerEnd firstEnd : Nat} {options : Options}
  {request : RequestInfo} {line : RequestLine} {read : FieldState}

def RequestInfo.canonical (request : RequestInfo) (options : Options) : Option Bytes :=
  canonicalLength options (readLengths (valuesOf request.fields "content-length"))

end Claim

end Sitometron.Http
