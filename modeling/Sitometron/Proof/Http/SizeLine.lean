import Sitometron.Http.Chunks
import Sitometron.Lib.Grammar

/-!
# The line that starts a chunk

`ParseSizeLine` accepts the lines of the grammar and reads their size.
-/

namespace Sitometron.Http

open Grammar

theorem classes : ∀ c : UInt8,
    (isTchar c = true ↔ Tchar c) ∧ (isHex c = true ↔ HexDig c) ∧ (isQdText c = true ↔ QdText c) ∧
      (isQuotedPair c = true ↔ Escaped c) ∧ (isOws c = true ↔ Space c) ∧
      (HexDig c → (ChunkScanner.hexNumber c).toNat = hexDigit c ∧ hexDigit c < 16) :=
  of_each_byte (by decide +kernel)

theorem isTchar_iff (c : UInt8) : isTchar c = true ↔ Tchar c := (classes c).1

theorem isHex_iff (c : UInt8) : isHex c = true ↔ HexDig c := (classes c).2.1

theorem isQdText_iff (c : UInt8) : isQdText c = true ↔ QdText c := (classes c).2.2.1

theorem isQuotedPair_iff (c : UInt8) : isQuotedPair c = true ↔ Escaped c := (classes c).2.2.2.1

theorem isOws_iff (c : UInt8) : isOws c = true ↔ Space c := (classes c).2.2.2.2.1

theorem hexNumber_toNat {c : UInt8} (hex : HexDig c) : (ChunkScanner.hexNumber c).toNat = hexDigit c ∧ hexDigit c < 16 :=
  (classes c).2.2.2.2.2 hex

section Runs

variable {p : UInt8 → Bool} {w s : Bytes}

def Stops (p : UInt8 → Bool) (s : Bytes) : Prop := ∀ c ∈ s.head?, p c = false

theorem stops_cons {c : UInt8} (other : p c = false) : Stops p (c :: s) := by
  intro d head
  cases head
  exact other

theorem takeWhile_run (run : ∀ c ∈ w, p c = true) (stops : Stops p s) : (w ++ s).takeWhile p = w := by
  rw [List.takeWhile_append_of_pos run]
  cases s with
  | nil => simp
  | cons c s => simp [stops c rfl]

theorem dropWhile_run (run : ∀ c ∈ w, p c = true) (stops : Stops p s) : (w ++ s).dropWhile p = s := by
  rw [List.dropWhile_append_of_pos run]
  cases s with
  | nil => rfl
  | cons c s => simp [stops c rfl]

theorem stops_dropWhile (p : UInt8 → Bool) (s : Bytes) : Stops p (s.dropWhile p) := by
  intro c head
  induction s with
  | nil => simp at head
  | cons d s ih =>
      rw [List.dropWhile_cons] at head
      split at head
      · exact ih head
      next other =>
        simp only [List.head?_cons, Option.mem_some] at head
        subst head
        simpa using other

end Runs

theorem afterQuoted_pair (c : UInt8) (rest : Bytes) :
    afterQuoted (byte '\\' :: c :: rest) = if isQuotedPair c then afterQuoted rest else none := by
  rw [afterQuoted.eq_def]
  rfl

theorem afterQuoted_close (rest : Bytes) : afterQuoted (byte '"' :: rest) = some rest := by
  rw [afterQuoted.eq_def]
  rfl

theorem afterQuoted_text {c : UInt8} (plain : QdText c) (rest : Bytes) : afterQuoted (c :: rest) = afterQuoted rest := by
  have notPair : c ≠ byte '\\' := by
    rintro rfl
    revert plain
    decide
  have notClose : c ≠ byte '"' := by
    rintro rfl
    revert plain
    decide
  rw [afterQuoted.eq_def]
  dsimp only
  rw [if_neg notPair, if_neg notClose, if_pos ((isQdText_iff c).2 plain)]

theorem afterQuoted_iff {s rest : Bytes} : afterQuoted s = some rest ↔ ∃ q, Quoted q ∧ s = q ++ byte '"' :: rest := by
  constructor
  · intro read
    induction s using afterQuoted.induct with
    | case1 => cases read
    | case2 => cases read
    | case3 c tail escaped ih =>
        rw [afterQuoted_pair, if_pos escaped] at read
        obtain ⟨q, quoted, rfl⟩ := ih read
        exact ⟨_, .pair ((isQuotedPair_iff c).1 escaped) quoted, rfl⟩
    | case4 c tail refused =>
        rw [afterQuoted_pair, if_neg refused] at read
        cases read
    | case5 =>
        rw [afterQuoted_close] at read
        cases read
        exact ⟨[], .nil, rfl⟩
    | case6 c tail _ _ plain ih =>
        have text := (isQdText_iff c).1 plain
        rw [afterQuoted_text text] at read
        obtain ⟨q, quoted, rfl⟩ := ih read
        exact ⟨_, .text text quoted, rfl⟩
    | case7 c tail notPair notClose refused =>
        rw [afterQuoted.eq_def] at read
        dsimp only at read
        rw [if_neg notPair, if_neg notClose, if_neg refused] at read
        cases read
  · rintro ⟨q, quoted, rfl⟩
    induction quoted with
    | nil => exact afterQuoted_close rest
    | text plain _ ih => rw [List.cons_append, afterQuoted_text plain, ih]
    | @pair c _ escaped _ ih =>
        rw [List.cons_append, List.cons_append, afterQuoted_pair, if_pos ((isQuotedPair_iff c).2 escaped), ih]

theorem afterValue_append {value rest : Bytes} (valid : ExtensionValue value) (stops : Stops isTchar rest) :
    afterValue (value ++ rest) = some rest := by
  cases valid with
  | token token =>
      obtain ⟨nonempty, chars⟩ := token
      obtain ⟨c, tail, rfl⟩ := List.exists_cons_of_ne_nil nonempty
      have head := chars c List.mem_cons_self
      have notQuote : c ≠ byte '"' := by
        rintro rfl
        revert head
        decide
      rw [List.cons_append, afterValue, if_neg notQuote, if_pos ((isTchar_iff c).2 head), dropWhile_run _ stops]
      exact fun d member => (isTchar_iff d).2 (chars d (List.mem_cons_of_mem c member))
  | @quoted q quoted =>
      rw [List.cons_append, afterValue, if_pos rfl, afterQuoted_iff]
      exact ⟨q, quoted, by simp⟩

theorem afterValue_some {s rest : Bytes} (read : afterValue s = some rest) : ∃ value, ExtensionValue value ∧ s = value ++ rest := by
  cases s with
  | nil => cases read
  | cons c s =>
      rw [afterValue] at read
      split at read
      next quote =>
        obtain ⟨q, quoted, rfl⟩ := afterQuoted_iff.1 read
        exact ⟨_, .quoted quoted, by simp [quote]⟩
      next =>
        split at read
        next char =>
          cases read
          refine ⟨c :: s.takeWhile isTchar, .token ⟨by simp, ?_⟩, by simp⟩
          intro d member
          rcases List.mem_cons.1 member with rfl | inside
          · exact (isTchar_iff d).1 char
          · exact (isTchar_iff d).1 (List.mem_takeWhile_imp inside)
        next => cases read

namespace ChunkScanner

section Extensions

variable {w s before after name : Bytes} {fuel : Nat}

theorem skipOws_append (bws : Bws w) (stops : Stops isOws s) : skipOws (w ++ s) = s :=
  dropWhile_run (fun c member => (isOws_iff c).2 (bws c member)) stops

theorem stops_bws {c : UInt8} (bws : Bws w) (other : isTchar c = false) : Stops isTchar (w ++ c :: s) := by
  cases w with
  | nil => exact stops_cons other
  | cons d w =>
      apply stops_cons
      rw [← Bool.not_eq_true, isTchar_iff]
      exact fun tchar => tchar.not_space (bws d List.mem_cons_self)

theorem stops_token {s : Bytes} (token : Token name) : Stops isOws (name ++ s) := by
  obtain ⟨nonempty, chars⟩ := token
  obtain ⟨c, tail, rfl⟩ := List.exists_cons_of_ne_nil nonempty
  apply stops_cons
  rw [← Bool.not_eq_true, isOws_iff]
  exact (chars c List.mem_cons_self).not_space

theorem stops_value {value : Bytes} (valid : ExtensionValue value) : Stops isOws (value ++ s) := by
  cases valid with
  | token token => exact stops_token token
  | quoted => exact stops_cons rfl

theorem stops_extensions (valid : Extensions s) : Stops isTchar s := by
  rcases valid.begins with rfl | ⟨w, rest, bws, rfl⟩
  · intro c head
    cases head
  · exact stops_bws bws rfl

theorem readExtensions_skip (bws : Bws w) (stops : Stops isOws s) (nonempty : s ≠ []) :
    readExtensions fuel (w ++ s) = readExtensions fuel s := by
  obtain ⟨c, rest, rfl⟩ := List.exists_cons_of_ne_nil nonempty
  cases fuel with
  | zero => rfl
  | succ fuel =>
      have same : skipOws (c :: rest) = c :: rest := skipOws_append (w := []) (by simp [Bws]) stops
      rw [readExtensions, readExtensions, skipOws_append bws stops, same]

theorem readExtensions_name (bws : Bws before) (bws' : Bws after) (token : Token name) (stops : Stops isTchar s) :
    readExtensions (fuel + 1) (before ++ byte ';' :: (after ++ (name ++ s))) =
      match skipOws s with
      | [] => if s.isEmpty then readExtensions fuel [] else false
      | d :: next =>
          if d = byte '=' then
            match afterValue (skipOws next) with
            | none => false
            | some rest => readExtensions fuel rest
          else if d ≠ byte ';' then false
          else readExtensions fuel (d :: next) := by
  have semicolon : Stops isOws (byte ';' :: (after ++ (name ++ s))) := stops_cons rfl
  have run : (name ++ s).dropWhile isTchar = s := dropWhile_run (fun c member => (isTchar_iff c).2 (token.2 c member)) stops
  have longer : s.length ≠ (name ++ s).length := by
    have positive := List.length_pos_iff.2 token.1
    rw [List.length_append]
    omega
  rw [readExtensions, skipOws_append bws semicolon]
  dsimp only
  rw [if_neg (by simp), skipOws_append bws' (stops_token token), run]
  apply (if_neg longer).trans
  cases skipOws s <;> rfl

theorem readExtensions_bare (bws : Bws before) (bws' : Bws after) (token : Token name) (rest : Extensions s) :
    readExtensions (fuel + 1) (before ++ byte ';' :: (after ++ (name ++ s))) = readExtensions fuel s := by
  rw [readExtensions_name bws bws' token (stops_extensions rest)]
  rcases rest.begins with rfl | ⟨w, tail, space, rfl⟩
  · rfl
  · have semicolon : Stops isOws (byte ';' :: tail) := stops_cons rfl
    rw [skipOws_append space semicolon, readExtensions_skip space semicolon (by simp)]
    rfl

theorem readExtensions_valued {left right value : Bytes} (bws : Bws before) (bws' : Bws after) (token : Token name)
    (space : Bws left) (space' : Bws right) (valid : ExtensionValue value) (rest : Extensions s) :
    readExtensions (fuel + 1) (before ++ byte ';' :: (after ++ (name ++ (left ++ byte '=' :: (right ++ (value ++ s)))))) =
      readExtensions fuel s := by
  have equals : Stops isOws (byte '=' :: (right ++ (value ++ s))) := stops_cons rfl
  have stops : Stops isTchar (left ++ byte '=' :: (right ++ (value ++ s))) := stops_bws space rfl
  rw [readExtensions_name bws bws' token stops, skipOws_append space equals]
  dsimp only
  rw [if_pos rfl, skipOws_append space' (stops_value valid), afterValue_append valid (stops_extensions rest)]

theorem readExtensions_complete (valid : Extensions s) (enough : s.length < fuel) : readExtensions fuel s = true := by
  induction valid generalizing fuel with
  | nil =>
      obtain ⟨fuel, rfl⟩ := Nat.exists_eq_add_of_le' enough
      rfl
  | @cons e s extension rest ih =>
      have shorter : e ≠ [] := by cases extension <;> simp
      have positive := List.length_pos_iff.2 shorter
      rw [List.length_append] at enough
      obtain ⟨fuel, rfl⟩ := Nat.exists_eq_add_of_le' (Nat.zero_lt_of_lt enough)
      have done : readExtensions fuel s = true := ih (by omega)
      cases extension with
      | bare bws bws' token =>
          rw [List.append_assoc, List.cons_append, List.append_assoc, readExtensions_bare bws bws' token rest]
          exact done
      | valued bws bws' token space space' value =>
          simp only [List.append_assoc, List.cons_append]
          rw [readExtensions_valued bws bws' token space space' value rest]
          exact done

theorem bws_takeWhile (s : Bytes) : Bws (s.takeWhile isOws) :=
  fun c member => (isOws_iff c).1 (List.mem_takeWhile_imp member)

theorem readExtensions_sound (read : readExtensions fuel s = true) : Extensions s := by
  induction fuel generalizing s with
  | zero => cases read
  | succ fuel ih =>
      have whole : s.takeWhile isOws ++ skipOws s = s := List.takeWhile_append_dropWhile
      rw [readExtensions] at read
      cases skipped : skipOws s with
      | nil =>
          rw [skipped] at read
          rw [List.isEmpty_iff.1 read]
          exact .nil
      | cons c rest =>
          rw [skipped] at read whole
          dsimp only at read
          split at read
          · cases read
          next semicolon =>
          obtain rfl : c = byte ';' := by simpa using semicolon
          split at read
          · cases read
          next nonempty =>
          -- The text is white space, a semicolon, white space, a name and what follows the name.
          generalize after : (skipOws rest).dropWhile isTchar = tail at read nonempty
          have spaces : rest.takeWhile isOws ++ skipOws rest = rest := List.takeWhile_append_dropWhile
          have named : (skipOws rest).takeWhile isTchar ++ tail = skipOws rest := by
            rw [← after]
            exact List.takeWhile_append_dropWhile
          have token : Token ((skipOws rest).takeWhile isTchar) := by
            constructor
            · intro none
              rw [none, List.nil_append] at named
              exact nonempty (congrArg List.length named)
            · exact fun d member => (isTchar_iff d).1 (List.mem_takeWhile_imp member)
          have parts : s = s.takeWhile isOws ++ byte ';' ::
              (rest.takeWhile isOws ++ ((skipOws rest).takeWhile isTchar ++ tail)) := by rw [named, spaces, whole]
          have gap : tail.takeWhile isOws ++ skipOws tail = tail := List.takeWhile_append_dropWhile
          have bare (more : Extensions tail) : Extensions s := by
            have first := Extensions.cons (.bare (bws_takeWhile s) (bws_takeWhile rest) token) more
            rw [parts]
            simpa using first
          cases next : skipOws tail with
          | nil =>
              rw [next] at read
              dsimp only at read
              split at read
              next done =>
                apply bare
                rw [List.isEmpty_iff.1 done]
                exact .nil
              next => cases read
          | cons d following =>
              rw [next] at read gap
              dsimp only at read
              split at read
              next equals =>
                subst equals
                cases value : afterValue (skipOws following) with
                | none =>
                    rw [value] at read
                    cases read
                | some more =>
                    rw [value] at read
                    obtain ⟨v, valid, split⟩ := afterValue_some value
                    have spaces' : following.takeWhile isOws ++ skipOws following = following := List.takeWhile_append_dropWhile
                    have first := Extensions.cons (.valued (bws_takeWhile s) (bws_takeWhile rest) token (bws_takeWhile tail)
                      (bws_takeWhile following) valid) (ih read)
                    rw [parts, ← gap, ← spaces', split]
                    simpa using first
              next =>
              split at read
              · cases read
              next semicolon' =>
                apply bare
                have more := (ih read).spaced (by simp) (bws_takeWhile tail)
                rwa [gap] at more

end Extensions

theorem reads_hex {digits : Bytes} (hex : ∀ c ∈ digits, HexDig c) :
    Radix.Reads (digits.foldl (fun r c => Radix.push 16 r (hexNumber c)) {}) (ofHex digits) := by
  have below (c : UInt8) (member : c ∈ digits) : (hexNumber c).toNat < (16 : UInt64).toNat := by
    rw [(hexNumber_toNat (hex c member)).1]
    exact (hexNumber_toNat (hex c member)).2
  have same : ofHex digits = digits.foldl (fun v c => (16 : UInt64).toNat * v + (hexNumber c).toNat) 0 := by
    apply List.foldl_ext
    intro v c member
    rw [(hexNumber_toNat (hex c member)).1]
    rfl
  rw [same]
  exact Radix.Reads.zero.foldl below

theorem stops_isHex {s : Bytes} (valid : Extensions s) : Stops isHex s := by
  intro c head
  have other := stops_extensions valid c head
  rw [← Bool.not_eq_true, isTchar_iff] at other
  rw [← Bool.not_eq_true, isHex_iff]
  rintro (digit | letter | letter)
  · exact other (.inr (.inl digit))
  · exact other (.inr (.inr (.inl ⟨letter.1, UInt8.le_trans letter.2 (by decide)⟩)))
  · exact other (.inr (.inr (.inr ⟨letter.1, UInt8.le_trans letter.2 (by decide)⟩)))

theorem parseSizeLine_complete {s : Bytes} {n : Nat} (line : SizeLine s n) :
    ∃ r, parseSizeLine s = some r ∧ Radix.Reads r n := by
  obtain ⟨digits, extensions, rfl, nonempty, hex, valid, rfl⟩ := line
  have run : ∀ c ∈ digits, isHex c = true := fun c member => (isHex_iff c).2 (hex c member)
  obtain ⟨c, tail, shape⟩ := List.exists_cons_of_ne_nil nonempty
  have first : isHex c = true := run c (by simp [shape])
  have starts : ¬((digits ++ extensions).isEmpty || !isHex ((digits ++ extensions).headD 0)) = true := by simp [shape, first]
  have read := @readExtensions_complete _ ((digits ++ extensions).length + 1) valid (by
    rw [List.length_append]
    omega)
  refine ⟨_, ?_, reads_hex hex⟩
  rw [parseSizeLine, if_neg starts]
  dsimp only
  rw [takeWhile_run run (stops_isHex valid), dropWhile_run run (stops_isHex valid), if_pos read]

theorem parseSizeLine_sound {s : Bytes} {r : SizeResult} (parsed : parseSizeLine s = some r) :
    ∃ n, SizeLine s n ∧ Radix.Reads r n := by
  rw [parseSizeLine] at parsed
  split at parsed
  · cases parsed
  next starts =>
  dsimp only at parsed
  split at parsed
  next read =>
    cases parsed
    have hex : ∀ c ∈ s.takeWhile isHex, HexDig c := fun c member => (isHex_iff c).1 (List.mem_takeWhile_imp member)
    refine ⟨_, ⟨_, _, List.takeWhile_append_dropWhile.symm, ?_, hex, readExtensions_sound read, rfl⟩, reads_hex hex⟩
    cases s with
    | nil => simp at starts
    | cons c s =>
        have first : isHex c = true := by simpa using starts
        simp [first]
  next => cases parsed

end ChunkScanner

end Sitometron.Http
