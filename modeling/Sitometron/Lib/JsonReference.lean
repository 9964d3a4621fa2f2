import Sitometron.Lib.Json

/-!
# A reference JSON library

A parser and a printer of compact objects, strings and unsigned integers. They satisfy the laws of
`JsonLibrary`, so the laws are consistent, and they run.
-/

namespace Sitometron.JsonReference
open JsonText

def hexValue (c : UInt8) : Option UInt8 :=
  if byte '0' ≤ c && c ≤ byte '9' then some (c - 0x30)
  else if byte 'a' ≤ c && c ≤ byte 'f' then some (c - 0x57)
  else none

def shortValue (letter : UInt8) : Option UInt8 :=
  if letter = 0x22 ∨ letter = 0x5C ∨ letter = 0x2F then some letter
  else if letter = byte 'b' then some 0x08
  else if letter = byte 'f' then some 0x0C
  else if letter = byte 'n' then some 0x0A
  else if letter = byte 'r' then some 0x0D
  else if letter = byte 't' then some 0x09
  else none

def readUnicode : Bytes → Option (UInt8 × Bytes)
  | z :: o :: high :: low :: rest =>
      if z = byte '0' && o = byte '0' then
        (hexValue high).bind fun h => (hexValue low).bind fun l =>
          if 16 * h + l < 0x80 then some (16 * h + l, rest) else none
      else none
  | _ => none

def readPiece : Bytes → Option (UInt8 × Bytes)
  | [] => none
  | b :: rest =>
      if b = 0x5C then
        match rest with
        | [] => none
        | letter :: rest =>
            if letter = byte 'u' then readUnicode rest
            else (shortValue letter).map fun value => (value, rest)
      else if b < 0x20 then none
      else some (b, rest)

def readChars : Nat → Bytes → Option (Bytes × Bytes)
  | 0, _ => none
  | _, [] => none
  | fuel + 1, b :: rest =>
      if b = 0x22 then some ([], rest)
      else (readPiece (b :: rest)).bind fun piece =>
        (readChars fuel piece.2).map fun tail => (piece.1 :: tail.1, tail.2)

def readString (s : Bytes) : Option (Bytes × Bytes) :=
  (readChars s.length s).filter fun read => (Utf8.count read.1).isSome

def readNumber (s : Bytes) : Option (UInt64 × Bytes) :=
  let digits := s.takeWhile isDigit
  if ofDecimal digits < 2 ^ 64 ∧ digits = decimal (ofDecimal digits) then
    some (UInt64.ofNat (ofDecimal digits), s.dropWhile isDigit)
  else none

def readKey (s : Bytes) : Option (Bytes × Bytes) :=
  match s with
  | 0x22 :: rest =>
      (readString rest).bind fun key =>
        match key.2 with
        | 0x3A :: rest => some (key.1, rest)
        | _ => none
  | _ => none

mutual

def readValue : Nat → Bytes → Option (Json × Bytes)
  | 0, _ => none
  | _, [] => none
  | fuel + 1, b :: rest =>
      if b = 0x22 then (readString rest).map fun read => (.string read.1, read.2)
      else if b = 0x7B then
        (readMembers fuel true rest).map fun read => (Json.ofMembers read.1, read.2)
      else (readNumber (b :: rest)).map fun read => (.unsigned read.1, read.2)

def readMembers : Nat → Bool → Bytes → Option (List (Bytes × Json) × Bytes)
  | 0, _, _ => none
  | _, _, [] => none
  | fuel + 1, first, b :: rest =>
      if b = 0x7D then some ([], rest)
      else
        let start := if first then some (b :: rest) else if b = 0x2C then some rest else none
        start.bind fun s => (readKey s).bind fun key => (readValue fuel key.2).bind fun value =>
          (readMembers fuel false value.2).map fun tail => ((key.1, value.1) :: tail.1, tail.2)

end

def parse (text : Bytes) : Option Json :=
  ((readValue text.length text).filter fun read => read.2.all isJsonSpace).map (·.1)

def dumpPiece (b : UInt8) : Piece :=
  if (shortLetter b).isSome && b ≠ 0x2F then .short b else if b < 0x20 then .unicode b else .raw b

mutual

def toTree : Json → Tree
  | .unsigned n => .number n
  | .string s => .string (s.map dumpPiece)
  | .object members => .object (toMembers members)
  | _ => .number 0

def toMembers : List (Bytes × Json) → Members
  | [] => .nil
  | m :: members => toMember m (toMembers members)

def toMember : Bytes × Json → Members → Members
  | (key, value), rest => .cons (key.map dumpPiece) (toTree value) rest

end

def dump (j : Json) : Bytes := (toTree j).render

def keysWithin : Nat → Bytes → List Bytes
  | 0, _ => []
  | _, [] => []
  | fuel + 1, b :: rest =>
      if b = 0x22 then
        match readString rest with
        | some (s, 0x3A :: after) => s :: keysWithin fuel after
        | some (_, after) => keysWithin fuel after
        | none => []
      else keysWithin fuel rest

def keys (text : Bytes) : List Bytes := keysWithin text.length text

theorem escapes : ∀ b : UInt8, (b < 16 → hexValue (hexDigit b) = some b) ∧
    (b / 16 < 16 ∧ b % 16 < 16 ∧ 16 * (b / 16) + b % 16 = b) ∧
    ∀ letter ∈ shortLetter b, shortValue letter = some b ∧ letter ≠ byte 'u' :=
  of_each_byte (by decide +kernel)

theorem hexValue_hexDigit {n : UInt8} (small : n < 16) : hexValue (hexDigit n) = some n := (escapes n).1 small

theorem unicode_digits (b : UInt8) : b / 16 < 16 ∧ b % 16 < 16 ∧ 16 * (b / 16) + b % 16 = b := (escapes b).2.1

theorem shortValue_shortLetter {b letter : UInt8} (short : shortLetter b = some letter) :
    shortValue letter = some b ∧ letter ≠ byte 'u' := (escapes b).2.2 letter short

theorem readPiece_render {p : Piece} (valid : p.Valid) (rest : Bytes) :
    readPiece (p.render ++ rest) = some (p.value, rest) := by
  cases p with
  | raw b =>
      have printable : ¬b < 0x20 := by simpa using valid.1
      simp [Piece.render, Piece.value, readPiece, valid.2.2, printable]
  | short b =>
      obtain ⟨letter, short⟩ := Option.isSome_iff_exists.1 valid
      obtain ⟨value, notUnicode⟩ := shortValue_shortLetter short
      simp [Piece.render, Piece.value, readPiece, short, value, notUnicode]
  | unicode b =>
      obtain ⟨high, low, sum⟩ := unicode_digits b
      have ascii : b < 0x80 := valid
      simp [Piece.render, Piece.value, readPiece, readUnicode, hexValue_hexDigit high,
        hexValue_hexDigit low, sum, ascii]

theorem render_head {p : Piece} (valid : p.Valid) : ∃ b tail, p.render = b :: tail ∧ b ≠ 0x22 := by
  cases p with
  | raw b => exact ⟨b, [], rfl, valid.2.1⟩
  | short b => exact ⟨0x5C, _, rfl, by decide⟩
  | unicode b => exact ⟨0x5C, _, rfl, by decide⟩

theorem readChars_render {pieces : List Piece} (valid : ∀ p ∈ pieces, p.Valid) (rest : Bytes) {fuel : Nat}
    (enough : pieces.length < fuel) :
    readChars fuel (pieces.flatMap Piece.render ++ 0x22 :: rest) = some (stringValue pieces, rest) := by
  induction pieces generalizing fuel with
  | nil =>
      obtain ⟨fuel, rfl⟩ := Nat.exists_eq_succ_of_ne_zero (Nat.ne_zero_of_lt enough)
      simp [readChars, stringValue]
  | cons p pieces ih =>
      obtain ⟨fuel, rfl⟩ := Nat.exists_eq_succ_of_ne_zero (Nat.ne_zero_of_lt enough)
      have first := valid p List.mem_cons_self
      obtain ⟨b, tail, head, notQuote⟩ := render_head first
      have piece := readPiece_render first (pieces.flatMap Piece.render ++ 0x22 :: rest)
      have others : readChars fuel (pieces.flatMap Piece.render ++ 0x22 :: rest) =
          some (stringValue pieces, rest) :=
        ih (fun q member => valid q (List.mem_cons_of_mem _ member)) (by simpa using enough)
      rw [head, List.cons_append] at piece
      simp only [List.flatMap_cons, head, List.cons_append, List.append_assoc, readChars, notQuote, if_false, piece,
        Option.bind_some, others, Option.map_some, stringValue, List.map_cons]

theorem length_le_render (pieces : List Piece) : pieces.length ≤ (pieces.flatMap Piece.render).length := by
  induction pieces with
  | nil => simp
  | cons p pieces ih =>
      have : 1 ≤ p.render.length := by cases p <;> simp [Piece.render]
      simp only [List.length_cons, List.flatMap_cons, List.length_append]
      omega

theorem readString_render {pieces : List Piece} (valid : ValidString pieces) (rest : Bytes) :
    readString (pieces.flatMap Piece.render ++ 0x22 :: rest) = some (stringValue pieces, rest) := by
  have enough : pieces.length < (pieces.flatMap Piece.render ++ 0x22 :: rest).length := by
    have := length_le_render pieces
    rw [List.length_append, List.length_cons]
    omega
  have utf8 := Utf8.wellFormed_iff.1 valid.2
  rw [readString, readChars_render valid.1 rest enough]
  simp [utf8]

theorem readKey_render {key : List Piece} (valid : ValidString key) (rest : Bytes) :
    readKey (quote key ++ 0x3A :: rest) = some (stringValue key, rest) := by
  have read := readString_render valid (0x3A :: rest)
  simp [quote, readKey, read]

theorem readNumber_render (n : UInt64) {rest : Bytes} (stop : rest.takeWhile isDigit = []) :
    readNumber (decimal n.toNat ++ rest) = some (n, rest) := by
  have digits : ∀ c ∈ decimal n.toNat, isDigit c = true := fun c member => decimal_isDigit member
  have drop : rest.dropWhile isDigit = rest := by
    have split := List.takeWhile_append_dropWhile (p := isDigit) (l := rest)
    rwa [stop, List.nil_append] at split
  have bound : n.toNat < 2 ^ 64 := n.toNat_lt
  simp only [readNumber, List.takeWhile_append_of_pos digits, List.dropWhile_append_of_pos digits, stop,
    List.append_nil, drop, ofDecimal_decimal, bound, and_self, if_true, UInt64.ofNat_toNat]

theorem decimal_head_ne (n : Nat) : ∃ b tail, decimal n = b :: tail ∧ b ≠ 0x22 ∧ b ≠ 0x7B := by
  obtain ⟨b, tail, shape⟩ := List.exists_cons_of_ne_nil (decimal_ne_nil n)
  have digit : isDigit b = true := decimal_isDigit (shape ▸ List.mem_cons_self)
  refine ⟨b, tail, shape, ?_, ?_⟩ <;> rintro rfl <;> cases digit

theorem members_stop (ms : Members) (rest : Bytes) :
    (ms.render false ++ 0x7D :: rest).takeWhile isDigit = [] := by
  cases ms with
  | nil => rfl
  | cons key value ms => simp [Members.render, show isDigit 0x2C = false from rfl]

mutual

theorem readValue_render (t : Tree) (valid : t.Valid) (rest : Bytes) (stop : rest.takeWhile isDigit = [])
    (fuel : Nat) (enough : t.render.length ≤ fuel) :
    readValue fuel (t.render ++ rest) = some (t.value, rest) := by
  match t, fuel with
  | .number n, fuel =>
      obtain ⟨b, tail, shape, notQuote, notBrace⟩ := decimal_head_ne n.toNat
      have read := readNumber_render n stop
      simp only [Tree.render, Tree.value, shape, List.length_cons, List.cons_append] at enough read ⊢
      obtain ⟨fuel, rfl⟩ := Nat.exists_eq_succ_of_ne_zero (Nat.ne_zero_of_lt enough)
      simp [readValue, notQuote, notBrace, read]
  | .string pieces, fuel =>
      have read := readString_render valid rest
      simp only [Tree.render, quote, List.length_append, List.length_cons, List.length_nil] at enough
      obtain ⟨fuel, rfl⟩ := Nat.exists_eq_succ_of_ne_zero (Nat.ne_zero_of_lt (by omega : 0 < fuel))
      simp [Tree.render, Tree.value, quote, readValue, read]
  | .object ms, fuel =>
      simp only [Tree.render, List.length_append, List.length_cons, List.length_nil] at enough
      obtain ⟨fuel, rfl⟩ := Nat.exists_eq_succ_of_ne_zero (Nat.ne_zero_of_lt (by omega : 0 < fuel))
      have read := readMembers_render ms valid true rest fuel (by omega)
      simp [Tree.render, Tree.value, readValue, read]

theorem readMembers_render (ms : Members) (valid : ms.Valid) (first : Bool) (rest : Bytes) (fuel : Nat)
    (enough : (ms.render first).length < fuel) :
    readMembers fuel first (ms.render first ++ 0x7D :: rest) = some (ms.values, rest) := by
  obtain ⟨fuel, rfl⟩ := Nat.exists_eq_succ_of_ne_zero (Nat.ne_zero_of_lt enough)
  match ms with
  | .nil => simp [Members.render, Members.values, readMembers]
  | .cons key value ms =>
      simp only [Members.render, quote, List.length_append, List.length_cons, List.length_nil] at enough
      have readK := readKey_render valid.1 (value.render ++ (ms.render false ++ 0x7D :: rest))
      have readV := readValue_render value valid.2.1 _ (members_stop ms rest) fuel (by omega)
      have readM := readMembers_render ms valid.2.2 false rest fuel (by omega)
      cases first with
      | true =>
          simp [Members.render, Members.values, readMembers, quote, List.append_assoc] at readK ⊢
          simp [readK, readV, readM]
      | false =>
          simp [Members.render, Members.values, readMembers, quote, List.append_assoc] at readK ⊢
          simp [readK, readV, readM]

end

theorem parse_render (t : Tree) (space : Bytes) (valid : t.Valid) (blank : ∀ b ∈ space, isJsonSpace b) :
    parse (t.render ++ space) = some t.value := by
  have stop : space.takeWhile isDigit = [] := by
    cases space with
    | nil => rfl
    | cons b space =>
        have notDigit : isDigit b = false := by
          have each : ∀ b : UInt8, isJsonSpace b = true → isDigit b = false := of_each_byte (by decide +kernel)
          exact each b (blank b List.mem_cons_self)
        rw [List.takeWhile_cons, notDigit]
        rfl
  rw [parse, readValue_render t valid space stop _ (by rw [List.length_append]; omega)]
  simpa using blank

theorem mem_insertAll {members sorted : List (Bytes × Json)} {m : Bytes × Json}
    (member : m ∈ members.foldl (fun sorted m => Json.insert m.1 m.2 sorted) sorted) :
    m ∈ members ∨ m ∈ sorted := by
  induction members generalizing sorted with
  | nil => exact .inr member
  | cons head members ih =>
      rcases ih member with member | member
      · exact .inl (List.mem_cons_of_mem _ member)
      · rcases Json.mem_insert member with rfl | member
        · exact .inl List.mem_cons_self
        · exact .inr member

def Utf8Strings (j : Json) : Prop := ∀ s, j.Holds s → Utf8.WellFormed s

theorem utf8Strings_ofMembers {members : List (Bytes × Json)} (each : ∀ m ∈ members, Utf8Strings m.2) :
    Utf8Strings (Json.ofMembers members) := by
  intro s holds
  cases holds with
  | member inside holds =>
      rcases mem_insertAll inside with inside | inside
      · exact each _ inside s holds
      · cases inside

theorem readValue_utf8 (fuel : Nat) :
    (∀ s read, readValue fuel s = some read → Utf8Strings read.1) ∧
      ∀ first s read, readMembers fuel first s = some read → ∀ m ∈ read.1, Utf8Strings m.2 := by
  induction fuel with
  | zero => exact ⟨fun s read h => by simp [readValue] at h, fun first s read h => by simp [readMembers] at h⟩
  | succ fuel ih =>
      constructor
      · intro s read done
        cases s with
        | nil => simp [readValue] at done
        | cons b rest =>
            simp only [readValue] at done
            split at done
            next =>
              obtain ⟨chars, string, rfl⟩ := Option.map_eq_some_iff.1 done
              intro s holds
              cases holds
              have utf8 := (Option.filter_eq_some_iff.1 string).2
              exact Utf8.wellFormed_iff.2 utf8
            next =>
              split at done
              next =>
                obtain ⟨members, inner, rfl⟩ := Option.map_eq_some_iff.1 done
                exact utf8Strings_ofMembers (ih.2 true rest members inner)
              next =>
                obtain ⟨number, -, rfl⟩ := Option.map_eq_some_iff.1 done
                intro s holds
                cases holds
      · intro first s read done
        cases s with
        | nil => simp [readMembers] at done
        | cons b rest =>
            simp only [readMembers] at done
            split at done
            next =>
              cases done
              intro m member
              cases member
            next =>
              obtain ⟨start, -, done⟩ := Option.bind_eq_some_iff.1 done
              obtain ⟨key, -, done⟩ := Option.bind_eq_some_iff.1 done
              obtain ⟨value, inner, done⟩ := Option.bind_eq_some_iff.1 done
              obtain ⟨tail, others, rfl⟩ := Option.map_eq_some_iff.1 done
              intro m member
              rcases List.mem_cons.1 member with rfl | member
              · exact ih.1 _ _ inner
              · exact ih.2 _ _ _ others m member

theorem parse_utf8 (text : Bytes) (j : Json) (s : Bytes) (parsed : parse text = some j) (holds : j.Holds s) :
    Utf8.WellFormed s := by
  obtain ⟨read, done, rfl⟩ := Option.map_eq_some_iff.1 parsed
  exact (readValue_utf8 text.length).1 text read (Option.filter_eq_some_iff.1 done).1 s holds

theorem dumpPiece_valid : ∀ b : UInt8, (dumpPiece b).Valid ∧ (dumpPiece b).value = b := of_each_byte (by decide +kernel)

theorem stringValue_dump (s : Bytes) : stringValue (s.map dumpPiece) = s := by
  simp [stringValue, Function.comp_def, dumpPiece_valid]

theorem validString_dump {s : Bytes} (utf8 : Utf8.WellFormed s) : ValidString (s.map dumpPiece) := by
  constructor
  · intro p member
    obtain ⟨b, -, rfl⟩ := List.mem_map.1 member
    exact (dumpPiece_valid b).1
  · rwa [stringValue_dump]

def Sorted (members : List (Bytes × Json)) : Prop := members.Pairwise fun a b => a.1 < b.1

theorem sorted_insert {key : Bytes} {value : Json} {members : List (Bytes × Json)} (sorted : Sorted members) :
    Sorted (Json.insert key value members) := by
  induction members with
  | nil => exact List.pairwise_singleton _ _
  | cons head members ih =>
      obtain ⟨k, v⟩ := head
      obtain ⟨above, sorted⟩ := List.pairwise_cons.1 sorted
      simp only [Json.insert]
      split
      next same => exact List.pairwise_cons.2 ⟨above, sorted⟩
      next different =>
        split
        next below =>
          refine List.pairwise_cons.2 ⟨fun m member => ?_, List.pairwise_cons.2 ⟨above, sorted⟩⟩
          rcases List.mem_cons.1 member with rfl | member
          · exact below
          · exact List.lt_trans below (above m member)
        next notBelow =>
          refine List.pairwise_cons.2 ⟨fun m member => ?_, ih sorted⟩
          rcases Json.mem_insert member with rfl | member
          · by_contra notAbove
            exact different (List.le_antisymm notAbove notBelow)
          · exact above m member

theorem sorted_insertAll {members sorted : List (Bytes × Json)} (start : Sorted sorted) :
    Sorted (members.foldl (fun sorted m => Json.insert m.1 m.2 sorted) sorted) := by
  induction members generalizing sorted with
  | nil => exact start
  | cons head members ih => exact ih (sorted_insert start)

theorem insert_last {key : Bytes} {value : Json} {members : List (Bytes × Json)}
    (below : ∀ m ∈ members, m.1 < key) : Json.insert key value members = members ++ [(key, value)] := by
  induction members with
  | nil => rfl
  | cons head members ih =>
      obtain ⟨k, v⟩ := head
      have less : k < key := below _ List.mem_cons_self
      have different : key ≠ k := by
        rintro rfl
        exact List.lt_irrefl _ less
      rw [Json.insert, if_neg different, if_neg (List.lt_asymm less),
        ih fun m member => below m (List.mem_cons_of_mem _ member)]
      rfl

theorem insertAll_sorted {members before : List (Bytes × Json)} (sorted : Sorted (before ++ members)) :
    members.foldl (fun sorted m => Json.insert m.1 m.2 sorted) before = before ++ members := by
  induction members generalizing before with
  | nil => simp
  | cons head members ih =>
      obtain ⟨-, -, cross⟩ := List.pairwise_append.1 sorted
      have last : Json.insert head.1 head.2 before = before ++ [(head.1, head.2)] :=
        insert_last fun m member => cross m member head List.mem_cons_self
      rw [List.foldl_cons, last, ih (by simpa using sorted)]
      simp

def Prints (j : Json) : Prop := (toTree j).Valid ∧ (toTree j).value = j

theorem toMembers_prints {members : List (Bytes × Json)}
    (each : ∀ m ∈ members, Utf8.WellFormed m.1 ∧ Prints m.2) :
    (toMembers members).Valid ∧ (toMembers members).values = members := by
  induction members with
  | nil => exact ⟨trivial, rfl⟩
  | cons head members ih =>
      obtain ⟨key, value⟩ := head
      obtain ⟨utf8, prints⟩ := each _ List.mem_cons_self
      obtain ⟨valid, values⟩ := ih fun m member => each m (List.mem_cons_of_mem _ member)
      exact ⟨⟨validString_dump utf8, prints.1, valid⟩, by
        simp [toMembers, toMember, Members.values, stringValue_dump, prints.2, values]⟩

theorem ofMembers_prints {members : List (Bytes × Json)}
    (each : ∀ m ∈ members, Utf8.WellFormed m.1 ∧ Prints m.2) : Prints (Json.ofMembers members) := by
  have inside : ∀ m ∈ members.foldl (fun sorted m => Json.insert m.1 m.2 sorted) [],
      Utf8.WellFormed m.1 ∧ Prints m.2 := by
    intro m member
    rcases mem_insertAll member with member | member
    · exact each m member
    · cases member
  obtain ⟨valid, values⟩ := toMembers_prints inside
  refine ⟨valid, ?_⟩
  have sorted : Sorted (members.foldl (fun sorted m => Json.insert m.1 m.2 sorted) []) :=
    sorted_insertAll List.Pairwise.nil
  have again := @insertAll_sorted _ [] sorted
  simp only [Json.ofMembers, toTree, Tree.value, values]
  rw [again, List.nil_append]

mutual

theorem value_prints (t : Tree) (valid : t.Valid) : Prints t.value := by
  match t with
  | .number n => exact ⟨trivial, rfl⟩
  | .string pieces =>
      refine ⟨validString_dump valid.2, ?_⟩
      simp [Tree.value, toTree, stringValue_dump]
  | .object ms => exact ofMembers_prints (values_print ms valid)

theorem values_print (ms : Members) (valid : ms.Valid) :
    ∀ m ∈ ms.values, Utf8.WellFormed m.1 ∧ Prints m.2 := by
  match ms with
  | .nil =>
      intro m member
      cases member
  | .cons key value ms =>
      intro m member
      rcases List.mem_cons.1 member with rfl | member
      · exact ⟨valid.1.2, value_prints value valid.2.1⟩
      · exact values_print ms valid.2.2 m member

end

def library : JsonLibrary where
  parse := parse
  keys := keys
  dump := dump
  parse_render := parse_render
  parse_utf8 := parse_utf8
  dump_render := fun t valid => ⟨toTree t.value, (value_prints t valid).1, (value_prints t valid).2, rfl⟩

end Sitometron.JsonReference
