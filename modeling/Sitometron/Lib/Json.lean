import Sitometron.Lib.Utf8

namespace Sitometron

/-- A JSON value as a parser returns it. Members of an object stand in ascending
order of their keys. -/
inductive Json where
  | null
  | boolean (value : Bool)
  | unsigned (value : UInt64)
  | integer (value : Int)
  | float (text : Bytes)
  | string (value : Bytes)
  | array (items : List Json)
  | object (members : List (Bytes × Json))

namespace Json

def find (key : Bytes) : Json → Option Json
  | .object members => (members.find? fun m => m.1 = key).map (·.2)
  | _ => none

def isObject : Json → Bool
  | .object _ => true
  | _ => false

def asString : Json → Option Bytes
  | .string s => some s
  | _ => none

def asUnsigned : Json → Option UInt64
  | .unsigned n => some n
  | _ => none

def asObject : Json → Option Json
  | .object members => some (.object members)
  | _ => none

def memberKeys : Json → List Bytes
  | .object members => members.map (·.1)
  | _ => []

def insert (key : Bytes) (value : Json) : List (Bytes × Json) → List (Bytes × Json)
  | [] => [(key, value)]
  | (k, v) :: members =>
      if key = k then (k, value) :: members
      else if key < k then (key, value) :: (k, v) :: members
      else (k, v) :: insert key value members

def ofMembers (members : List (Bytes × Json)) : Json :=
  .object (members.foldl (fun sorted m => insert m.1 m.2 sorted) [])

theorem mem_insert {key : Bytes} {value : Json} {members : List (Bytes × Json)} {m : Bytes × Json}
    (member : m ∈ insert key value members) : m = (key, value) ∨ m ∈ members := by
  induction members with
  | nil => exact .inl (by simpa [insert] using member)
  | cons head members ih =>
      obtain ⟨k, v⟩ := head
      simp only [insert] at member
      split at member
      next same =>
        subst same
        rcases List.mem_cons.1 member with rfl | member
        · exact .inl rfl
        · exact .inr (List.mem_cons_of_mem _ member)
      next =>
        split at member
        next => simpa using member
        next =>
          rcases List.mem_cons.1 member with rfl | member
          · exact .inr List.mem_cons_self
          · exact (ih member).imp_right (List.mem_cons_of_mem _)

theorem find?_insert {k key : Bytes} {value : Json} {members : List (Bytes × Json)} :
    (insert k value members).find? (fun m => m.1 = key) =
      if k = key then some (k, value) else members.find? fun m => m.1 = key := by
  induction members with
  | nil => by_cases same : k = key <;> simp [insert, same]
  | cons head members ih =>
      obtain ⟨k', v'⟩ := head
      rw [insert]
      split
      next same => subst same; by_cases same : k = key <;> simp [same]
      next different =>
        split
        next => by_cases same : k = key <;> simp [same]
        next =>
          rw [List.find?_cons, ih, List.find?_cons]
          by_cases head : k' = key
          · simp [head, show k ≠ key from fun same => different (same.trans head.symm)]
          · simp [head]

theorem length_insert {key : Bytes} {value : Json} {members : List (Bytes × Json)}
    (fresh : key ∉ members.map (·.1)) : (insert key value members).length = members.length + 1 := by
  induction members with
  | nil => rfl
  | cons head members ih =>
      simp only [List.map_cons, List.mem_cons, not_or] at fresh
      rw [insert, if_neg fresh.1]
      split
      next => rfl
      next => rw [List.length_cons, ih fresh.2, List.length_cons]

theorem foldl_insert {members sorted : List (Bytes × Json)}
    (distinct : (members.map (·.1)).Nodup) (fresh : ∀ m ∈ members, m.1 ∉ sorted.map (·.1)) :
    (members.foldl (fun sorted m => insert m.1 m.2 sorted) sorted).length = members.length + sorted.length ∧
      ∀ key, (members.foldl (fun sorted m => insert m.1 m.2 sorted) sorted).find? (fun m => m.1 = key) =
        (members.find? fun m => m.1 = key).or (sorted.find? fun m => m.1 = key) := by
  induction members generalizing sorted with
  | nil => simp
  | cons head members ih =>
      obtain ⟨first, distinct⟩ := List.nodup_cons.1 distinct
      have others : ∀ m ∈ members, m.1 ∉ (insert head.1 head.2 sorted).map (·.1) := by
        intro m member inside
        obtain ⟨m', inside, same⟩ := List.mem_map.1 inside
        rcases mem_insert inside with rfl | inside
        · exact first (List.mem_map.2 ⟨m, member, same.symm⟩)
        · exact fresh m (List.mem_cons_of_mem _ member) (List.mem_map.2 ⟨m', inside, same⟩)
      obtain ⟨length, found⟩ := ih distinct others
      refine ⟨?_, fun key => ?_⟩
      · rw [List.foldl_cons, length, length_insert (fresh head List.mem_cons_self), List.length_cons]
        omega
      · rw [List.foldl_cons, found, find?_insert, List.find?_cons]
        by_cases same : head.1 = key
        · subst same
          have missing : members.find? (fun m => m.1 = head.1) = none := by
            rw [List.find?_eq_none]
            intro m member
            simpa using fun equal => first (List.mem_map.2 ⟨m, member, equal⟩)
          simp [missing]
        · simp [same]

theorem find_ofMembers {members : List (Bytes × Json)} (distinct : (members.map (·.1)).Nodup) {key : Bytes}
    {value : Json} (member : (key, value) ∈ members) : (ofMembers members).find key = some value := by
  have found := (@foldl_insert members [] distinct (by simp)).2 key
  have first : members.find? (fun m => m.1 = key) = some (key, value) := by
    clear found
    induction members with
    | nil => cases member
    | cons head members ih =>
        obtain ⟨fresh, distinct⟩ := List.nodup_cons.1 distinct
        rcases List.mem_cons.1 member with rfl | member
        · simp
        · have different : head.1 ≠ key := fun same => fresh (List.mem_map.2 ⟨_, member, same.symm⟩)
          rw [List.find?_cons, decide_eq_false different]
          exact ih distinct member
  rw [ofMembers, find, found, first]
  rfl

theorem length_memberKeys_ofMembers {members : List (Bytes × Json)} (distinct : (members.map (·.1)).Nodup) :
    (ofMembers members).memberKeys.length = members.length := by
  simpa [ofMembers, memberKeys] using (@foldl_insert members [] distinct (by simp)).1

theorem mem_memberKeys_ofMembers {members : List (Bytes × Json)} {key : Bytes}
    (member : key ∈ (ofMembers members).memberKeys) : key ∈ members.map (·.1) := by
  have read : ∀ sorted : List (Bytes × Json), ∀ m ∈ members.foldl (fun sorted m => insert m.1 m.2 sorted) sorted,
      m ∈ members ∨ m ∈ sorted := by
    clear member
    induction members with
    | nil => exact fun sorted m member => .inr member
    | cons head members ih =>
        intro sorted m member
        rcases ih _ m member with member | member
        · exact .inl (List.mem_cons_of_mem _ member)
        · rcases mem_insert member with rfl | member
          · exact .inl List.mem_cons_self
          · exact .inr member
  obtain ⟨m, stored, rfl⟩ := List.mem_map.1 member
  exact List.mem_map_of_mem ((read [] m stored).resolve_right List.not_mem_nil)

inductive Holds (s : Bytes) : Json → Prop
  | string : Holds s (.string s)
  | item {j : Json} {items : List Json} : j ∈ items → Holds s j → Holds s (.array items)
  | member {key : Bytes} {j : Json} {members : List (Bytes × Json)} :
      (key, j) ∈ members → Holds s j → Holds s (.object members)

theorem Holds.of_find {s key : Bytes} {j v : Json} (found : j.find key = some v) (holds : Holds s v) :
    Holds s j := by
  cases j with
  | object members =>
      obtain ⟨m, read, rfl⟩ := Option.map_eq_some_iff.1 found
      exact .member (List.mem_of_find?_eq_some read) holds
  | _ => cases found

end Json

/-! ## Texts

A fragment of the JSON grammar: compact objects, strings and unsigned integers. A string text is
a list of pieces, one for each byte of its value. -/

namespace JsonText

inductive Piece where
  | raw (b : UInt8)
  | short (b : UInt8)
  | unicode (b : UInt8)
deriving DecidableEq, Repr

def shortLetter (b : UInt8) : Option UInt8 :=
  if b = 0x22 ∨ b = 0x5C ∨ b = 0x2F then some b
  else if b = 0x08 then some (byte 'b')
  else if b = 0x0C then some (byte 'f')
  else if b = 0x0A then some (byte 'n')
  else if b = 0x0D then some (byte 'r')
  else if b = 0x09 then some (byte 't')
  else none

def hexDigit (n : UInt8) : UInt8 := if n < 10 then 0x30 + n else 0x57 + n

namespace Piece

def value : Piece → UInt8
  | raw b | short b | unicode b => b

def render : Piece → Bytes
  | raw b => [b]
  | short b => [0x5C, (shortLetter b).getD b]
  | unicode b => [0x5C, byte 'u', byte '0', byte '0', hexDigit (b / 16), hexDigit (b % 16)]

def Valid : Piece → Prop
  | raw b => 0x20 ≤ b ∧ b ≠ 0x22 ∧ b ≠ 0x5C
  | short b => (shortLetter b).isSome
  | unicode b => b < 0x80

instance : (p : Piece) → Decidable p.Valid
  | raw _ | short _ | unicode _ => by unfold Valid; infer_instance

end Piece

def stringValue (pieces : List Piece) : Bytes := pieces.map Piece.value

def quote (pieces : List Piece) : Bytes := [0x22] ++ pieces.flatMap Piece.render ++ [0x22]

def ValidString (pieces : List Piece) : Prop :=
  (∀ p ∈ pieces, p.Valid) ∧ Utf8.WellFormed (stringValue pieces)

instance (pieces : List Piece) : Decidable (ValidString pieces) := instDecidableAnd

mutual

inductive Tree where
  | number (n : UInt64)
  | string (pieces : List Piece)
  | object (members : Members)

inductive Members where
  | nil
  | cons (key : List Piece) (value : Tree) (rest : Members)

end

mutual

def Tree.render : Tree → Bytes
  | .number n => decimal n.toNat
  | .string pieces => quote pieces
  | .object members => [0x7B] ++ members.render true ++ [0x7D]

def Members.render : Members → Bool → Bytes
  | .nil, _ => []
  | .cons key value rest, first =>
      (if first then [] else [0x2C]) ++ quote key ++ [0x3A] ++ value.render ++ rest.render false

end

mutual

def Tree.value : Tree → Json
  | .number n => .unsigned n
  | .string pieces => .string (stringValue pieces)
  | .object members => Json.ofMembers members.values

def Members.values : Members → List (Bytes × Json)
  | .nil => []
  | .cons key value rest => (stringValue key, value.value) :: rest.values

end

mutual

def Tree.Valid : Tree → Prop
  | .number _ => True
  | .string pieces => ValidString pieces
  | .object members => members.Valid

def Members.Valid : Members → Prop
  | .nil => True
  | .cons key value rest => ValidString key ∧ value.Valid ∧ rest.Valid

end

theorem Piece.printable {p : Piece} (valid : p.Valid) : ∀ b ∈ p.render, 0x20 ≤ b := by
  cases p with
  | raw b =>
      intro c inside
      rw [Piece.render, List.mem_singleton] at inside
      exact inside ▸ valid.1
  | short b =>
      have letters : ∀ b : UInt8, ∀ l ∈ shortLetter b, 0x20 ≤ l := of_each_byte (by decide +kernel)
      obtain ⟨l, found⟩ := Option.isSome_iff_exists.1 valid
      simpa [Piece.render, found] using letters b l found
  | unicode b =>
      have digits : ∀ b : UInt8, 0x20 ≤ hexDigit (b / 16) ∧ 0x20 ≤ hexDigit (b % 16) := of_each_byte (by decide +kernel)
      intro c inside
      simp only [Piece.render, List.mem_cons, List.not_mem_nil, or_false] at inside
      rcases inside with rfl | rfl | rfl | rfl | rfl | rfl
      · decide
      · decide
      · decide
      · decide
      · exact (digits b).1
      · exact (digits b).2

theorem quote_printable {pieces : List Piece} (valid : ValidString pieces) : ∀ b ∈ quote pieces, 0x20 ≤ b := by
  intro b inside
  simp only [quote, List.mem_append, List.mem_singleton, List.mem_flatMap] at inside
  rcases inside with (rfl | ⟨p, member, inside⟩) | rfl
  · decide
  · exact Piece.printable (valid.1 p member) b inside
  · decide

theorem decimal_printable {n : Nat} : ∀ b ∈ decimal n, 0x20 ≤ b := by
  intro b inside
  have digit := decimal_isDigit inside
  simp only [isDigit, Bool.and_eq_true, decide_eq_true_eq] at digit
  exact UInt8.le_trans (by decide) digit.1

mutual

theorem Tree.printable : (t : Tree) → t.Valid → ∀ b ∈ t.render, 0x20 ≤ b
  | .number _, _ => decimal_printable
  | .string _, valid => quote_printable valid
  | .object members, valid => by
      intro b inside
      simp only [Tree.render, List.mem_append, List.mem_singleton] at inside
      rcases inside with (rfl | inside) | rfl
      · decide
      · exact members.printable valid true b inside
      · decide

theorem Members.printable : (members : Members) → members.Valid → ∀ first, ∀ b ∈ members.render first, 0x20 ≤ b
  | .nil, _ => by simp [Members.render]
  | .cons key value rest, valid => by
      intro first b inside
      simp only [Members.render, List.mem_append, List.mem_singleton] at inside
      rcases inside with (((inside | inside) | rfl) | inside) | inside
      · cases first
        · rw [if_neg (by decide), List.mem_singleton] at inside
          exact inside ▸ by decide
        · simp at inside
      · exact quote_printable valid.1 b inside
      · decide
      · exact value.printable valid.2.1 b inside
      · exact rest.printable valid.2.2 false b inside

end

theorem quote_length (pieces : List Piece) : (quote pieces).length ≤ 6 * pieces.length + 2 := by
  have each : (pieces.flatMap Piece.render).length ≤ 6 * pieces.length := by
    induction pieces with
    | nil => simp
    | cons p pieces ih =>
        have : p.render.length ≤ 6 := by cases p <;> simp [Piece.render]
        rw [List.flatMap_cons, List.length_append, List.length_cons]
        omega
  simp only [quote, List.length_append, List.length_singleton]
  omega

end JsonText

def isJsonSpace (b : UInt8) : Bool := b = 0x20 || b = 0x09 || b = 0x0A || b = 0x0D

open JsonText in
structure JsonLibrary where
  parse : Bytes → Option Json
  /-- The object keys of a text, at every depth and with repetitions, as they are read. -/
  keys : Bytes → List Bytes
  dump : Json → Bytes
  parse_render : ∀ (t : Tree) (space : Bytes), t.Valid → (∀ b ∈ space, isJsonSpace b) →
    parse (t.render ++ space) = some t.value
  parse_utf8 : ∀ (text : Bytes) (j : Json) (s : Bytes), parse text = some j → j.Holds s → Utf8.WellFormed s
  dump_render : ∀ t : Tree, t.Valid → ∃ printed : Tree,
    printed.Valid ∧ printed.value = t.value ∧ printed.render = dump t.value

end Sitometron
