import RequestLog.Json.Tree

/-!
# Reading values of a known shape

A decoder reads a tree in the order of the text and stops at the first fault,
which may be one of the text or one of the shape: a key that does not belong is
reported before the value behind it is looked at. Every decoder is given the
`room` that is left, the number of brackets it may still open.

A record is read from an object or, in the order of its declaration, from an
array. It is described by one `Slot` for each field, and read into a draft whose
fields are still optional; who asked for the record turns the draft into the
record, or names the first missing field.
-/

namespace RequestLog.Json

/-- Reads a value, given the number of brackets that may still be opened. -/
abbrev Decoder (α : Type) := Nat → Tree → Except Fault α

def nestingRoom : Nat := 127

def Tree.found : Tree → Except Fault Found
  | .null => .ok .null
  | .bool b => .ok (.bool b)
  | .number n => n.map .number
  | .text s => s.map .text
  | .array _ => .ok .sequence
  | .object _ => .ok .map
  | .broken b _ => .error b.reading

def Tree.mismatch {α : Type} (expected : String) (t : Tree) : Except Fault α :=
  t.found.bind fun f => .error (.invalidType f expected)

/-! ## Scalars -/

def decodeText (expected : String) : Decoder String
  | _, .text s => s
  | _, t => t.mismatch expected

def decodeBool : Decoder Bool
  | _, .bool b => .ok b
  | _, t => t.mismatch "a boolean"

/-- An integer that has to pass a test of its range. -/
def Number.toRange (expected : String) (inRange : Int → Bool) :
    Number → Except Fault Int
  | .int i =>
      if inRange i then .ok i else .error (.invalidValue (.number (.int i)) expected)
  | .float x => .error (.invalidType (.number (.float x)) expected)

/-- Whether an integer fits an unsigned word of the given width. -/
def fitsUnsigned (bits : Nat) (i : Int) : Bool := 0 ≤ i && i < Decimal.twos bits

def asInt64 : Json → Except Fault Int
  | .number n => n.toRange "i64" (Decimal.fitsSigned 64)
  | v => .error (.invalidType v.found "i64")

/-- A value, already read, as a double. -/
def asFloat : Json → Except Fault Float
  | .number n => .ok n.toFloat
  | v => .error (.invalidType v.found "f64")

def decodeUnsigned (bits : Nat) : Decoder Nat
  | _, .number n =>
      n.bind fun n => (n.toRange s!"u{bits}" (fitsUnsigned bits)).map Int.toNat
  | _, t => t.mismatch s!"u{bits}"

def decodeFloat : Decoder Float
  | _, .number n => n.map Number.toFloat
  | _, t => t.mismatch "f64"

def decodeOption {α : Type} (read : Decoder α) : Decoder (Option α)
  | _, .null => .ok none
  | _, .broken b .null => .error b.reading
  | room, t => (read room t).map some

/-! ## Sequences -/

/-- Items read in order, behind those already read, last one first. -/
def decodeItems {α : Type} (read : Tree → Except Fault α) :
    List α → Items → Except Fault (List α)
  | done, .closed => .ok done.reverse
  | _, .stopped b => .error b.reading
  | done, .cons t rest =>
      match read t with
      | .ok a => decodeItems read (a :: done) rest
      | .error f => .error f

def decodeList {α : Type} (read : Decoder α) : Decoder (List α)
  | 0, .array _ => .error .nestingLimit
  | room + 1, .array items => decodeItems (read room) [] items
  | _, t => t.mismatch "a sequence"

/-! ## Any value -/

mutual

/-- The value as it is; only the text and the nesting can be at fault. -/
def toJson : Nat → Tree → Except Fault Json
  | _, .null => .ok .null
  | _, .bool b => .ok (.bool b)
  | _, .number n => n.map .number
  | _, .text s => s.map .text
  | 0, .array _ => .error .nestingLimit
  | 0, .object _ => .error .nestingLimit
  | room + 1, .array items => (itemsToJson room [] items).map .array
  | room + 1, .object members => (membersToJson room [] members).map .object
  | _, .broken b _ => .error b.reading

def itemsToJson (room : Nat) : List Json → Items → Except Fault (List Json)
  | done, .closed => .ok done.reverse
  | _, .stopped b => .error b.reading
  | done, .cons t rest =>
      match toJson room t with
      | .ok v => itemsToJson room (v :: done) rest
      | .error f => .error f

def membersToJson (room : Nat) :
    List (String × Json) → Members → Except Fault (List (String × Json))
  | done, .closed => .ok done
  | _, .stopped b _ => .error b.reading
  | done, .cons key t rest =>
      match key with
      | .error f => .error f
      | .ok key =>
          match toJson room t with
          | .ok v => membersToJson room (put key v done) rest
          | .error f => .error f

end

def decodeJson : Decoder Json := toJson

def decodeObject : Decoder (List (String × Json))
  | 0, .object _ => .error .nestingLimit
  | room + 1, .object members => membersToJson room [] members
  | _, t => t.mismatch "a map"

/-! ## Values that are passed over -/

mutual

/-- Passing over a value asks only that its text can be followed to its end. -/
def skip : Tree → Except Fault Unit
  | .array items => skipItems items
  | .object members => skipMembers members
  | .broken b _ => .error b.skipping
  | .null | .bool _ | .number _ | .text _ => .ok ()

def skipItems : Items → Except Fault Unit
  | .closed => .ok ()
  | .stopped b => .error b.skipping
  | .cons t rest =>
      match skip t with
      | .ok () => skipItems rest
      | .error f => .error f

def skipMembers : Members → Except Fault Unit
  | .closed => .ok ()
  | .stopped b _ => .error b.skipping
  | .cons _ t rest =>
      match skip t with
      | .ok () => skipMembers rest
      | .error f => .error f

end

/-! ## Choices by name -/

/-- One of a list of named alternatives; a name with a payload reads it. -/
structure Choice (α : Type) where
  names : List String
  plain : String → Option (Except Fault α)
  /-- The alternative that is written as the only key of an object. -/
  keyed : String → Option (Decoder α)

def nameFault : Option Token → Fault
  | none => .endInValue
  | some t =>
      match t with
      | .punct .openArray => .invalidType .sequence "variant identifier"
      | .punct .openObject => .invalidType .map "variant identifier"
      | t =>
          match t.leaf with
          | .error (b, _) => b.reading
          | .ok tree =>
              match tree.found with
              | .ok f => .invalidType f "variant identifier"
              | .error f => f

/-- After the only member of a choice its bracket closes. -/
def Members.close : Members → Except Fault Unit
  | .closed => .ok ()
  | .stopped ⟨.endInObject, _⟩ none => .error .endInObject
  | .stopped _ _ | .cons .. => .error .expectedValue

def Choice.decode {α : Type} (c : Choice α) : Decoder α
  | _, .text s => do
      let name ← s
      match c.plain name with
      | some read => read
      | none => .error (.unknownVariant name c.names)
  | 0, .object _ => .error .nestingLimit
  | room + 1, .object members =>
      match members with
      | .closed => .error .expectedValue
      | .stopped _ next => .error (nameFault next)
      | .cons key value rest => do
          let name ← key
          match c.keyed name with
          | none => .error (.unknownVariant name c.names)
          | some read => do
              let a ← read room value
              rest.close
              return a
  | _, .broken b .quote | _, .broken b .noColon => .error b.reading
  | _, .broken _ .nothing => .error .endInValue
  | _, _ => .error .expectedValue

/-- Where nothing but the name counts, a payload has to be null. -/
def decodeUnit {α : Type} (a : α) : Decoder α
  | _, .null => .ok a
  | _, t => t.mismatch "unit"

/-- A choice among constants. `names` may list several spellings of one value. -/
def Choice.constants {α : Type} (names : List String) (value : String → Option α) :
    Choice α where
  names := names
  plain name := (value name).map .ok
  keyed name := (value name).map decodeUnit

/-- Where a payload is due, the name alone is not enough. -/
def payloadDue {α : Type} : Except Fault α :=
  .error (.invalidType .unitVariant "newtype variant")

/-! ## Records -/

structure Slot (δ : Type) where
  key : String
  fill : Nat → Tree → δ → Except Fault δ

structure Record (δ : Type) where
  name : String
  slots : List (Slot δ)
  /-- How many leading fields an array has to give; the others have defaults. -/
  required : Nat
  strict : Bool
  /-- What becomes of an unknown key that is neither refused nor passed over. A
  record with such a rest has no order of fields, and is read from no array. -/
  rest : Option (String → Nat → Tree → δ → Except Fault δ) := none

namespace Record

variable {δ : Type}

def expected (r : Record δ) : String :=
  let n := r.slots.length
  let noun := if n = 1 then "element" else "elements"
  s!"struct {r.name} with {n} {noun}"

/-- What may follow the last field in an array. -/
def endOfItems : Items → Except Fault Unit
  | .closed => .ok ()
  | .stopped ⟨.endInArray, _⟩ => .error .endInArray
  | .stopped ⟨.trailingComma, _⟩ => .error .trailingComma
  | .stopped _ | .cons .. => .error .trailingCharacters

/-- Fields by position, `index` of them being read already. -/
def fromItems (r : Record δ) (room index : Nat) :
    List (Slot δ) → Items → δ → Except Fault δ
  | [], items, draft => do
      endOfItems items
      return draft
  | _ :: _, .closed, draft =>
      if r.required ≤ index then .ok draft
      else .error (.invalidLength index r.expected)
  | _ :: _, .stopped b, _ => .error b.reading
  | slot :: slots, .cons t rest, draft => do
      let draft ← slot.fill room t draft
      r.fromItems room (index + 1) slots rest draft

/-- Fields by name; `seen` are the keys read already. -/
def fromMembers (r : Record δ) (room : Nat) :
    List String → Members → δ → Except Fault δ
  | _, .closed, draft => .ok draft
  | _, .stopped b _, _ => .error b.reading
  | seen, .cons key t rest, draft => do
      let key ← key
      match r.slots.find? (·.key == key) with
      | some slot =>
          if seen.contains key then .error (.duplicateField key)
          else do
            let draft ← slot.fill room t draft
            r.fromMembers room (key :: seen) rest draft
      | none =>
          match r.rest with
          | some keep => do
              let draft ← keep key room t draft
              r.fromMembers room seen rest draft
          | none =>
              if r.strict then .error (.unknownField key (r.slots.map (·.key)))
              else do
                skip t
                r.fromMembers room seen rest draft

def decode (r : Record δ) (empty : δ) : Decoder δ
  | 0, .array _ => .error .nestingLimit
  | 0, .object _ => .error .nestingLimit
  | room + 1, .array items =>
      if r.rest.isSome then .error (.invalidType .sequence s!"struct {r.name}")
      else r.fromItems room 0 r.slots items empty
  | room + 1, .object members => r.fromMembers room [] members empty
  | _, t => t.mismatch s!"struct {r.name}"

end Record

def require {α : Type} (key : String) (o : Option α) : Except Fault α :=
  match o with
  | some a => .ok a
  | none => .error (.missingField key)

/-! ## Whole texts -/

def decodeWhole {α : Type} (read : Decoder α) (text : String) : Except Fault α := do
  let (tree, rest) := build .value [] (tokens text.toList)
  let a ← read nestingRoom tree
  if rest.isEmpty then return a else .error .trailingCharacters

def parse (text : String) : Except Fault Json := decodeWhole decodeJson text

end RequestLog.Json
