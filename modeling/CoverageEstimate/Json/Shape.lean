/-
# Shapes of documents

A shape says what a document must look like to be read as a value of the domain.  Reading by a
shape gives the value in its normal form: the members of a record are all there, in the order of
the shape, and members that the shape does not name are gone.

A document can be read by a shape in two ways, from a text or from a value that was read before.
The two differ only in what they can say about a fault.
-/
import CoverageEstimate.Json.Reader

namespace CoverageEstimate.Json

/-- What a record holds for a member that is not written. -/
inductive Presence where
  /-- The member must be written. -/
  | required
  /-- A missing member is null; a record written as a list must hold it all the same. -/
  | orNull
  /-- A missing member has the given value. -/
  | default (v : Value)
  deriving Inhabited

mutual

/-- What a document must look like. -/
inductive Shape where
  /-- A string. -/
  | text
  /-- A natural number below `2 ^ 64`; messages call it by the given name. -/
  | natural (name : String)
  /-- A whole number of 32 bits. -/
  | integer32
  /-- Any number, read as a double. -/
  | real
  /-- A truth value. -/
  | flag
  /-- One of the given words. -/
  | choice (words : List String)
  /-- A list of items of one shape. -/
  | list (item : Shape)
  /-- Null, or something of the shape. -/
  | optional (inner : Shape)
  /-- An object with the given fields; messages call it by the given name.  It may also be written
  as the list of its fields.  The scattered fields stand among the others and are looked at last,
  when the whole object has been read; a record that has some is written as an object only. -/
  | record (name : String) (fields : Fields) (scattered : Fields)

/-- The fields of a record. -/
inductive Fields where
  | none
  | field (name : String) (presence : Presence) (shape : Shape) (others : Fields)

end

namespace Fields

/-- The number of fields. -/
def count : Fields → Nat
  | none => 0
  | field _ _ _ others => others.count + 1

/-- Whether one of the fields has the name. -/
def has : Fields → String → Bool
  | none, _ => false
  | field n _ _ others, name => n == name || others.has name

/-- The members of a record in the order of its fields, from the members that are written. -/
def complete : Fields → List (String × Value) → Except Cause (List (String × Value))
  | none, _ => .ok []
  | field name presence _ others, written => do
    let v ←
      match Value.member? name written, presence with
      | some v, _ => Except.ok v
      | Option.none, .required => Except.error (Cause.missingMember name)
      | Option.none, .orNull => Except.ok Value.null
      | Option.none, .default v => Except.ok v
    let members ← others.complete written
    pure ((name, v) :: members)

end Fields

/-- How messages name a record of so many fields that is written as a list. -/
def describeRecord (name : String) (count : Nat) : String :=
  "struct " ++ name ++ " with " ++ String.ofList (Decimal.digits count) ++
    (if count == 1 then " element" else " elements")

/-- A number that must be natural. -/
def asNatural (name : String) (n : Number) : Except Cause Value :=
  match n with
  | .natural _ => .ok (.number n)
  | .negative _ => .error (.wrongValue (.ofNumber n) name)
  | .real _ => .error (.wrongType (.ofNumber n) name)

/-- A number that must be a whole number of 32 bits. -/
def asInteger32 (n : Number) : Except Cause Value :=
  match n with
  | .natural k => if k < Nat.pow 2 31 then .ok (.number n) else .error (.wrongValue (.ofNumber n) "i32")
  | .negative k => if k ≤ Nat.pow 2 31 then .ok (.number n) else .error (.wrongValue (.ofNumber n) "i32")
  | .real _ => .error (.wrongType (.ofNumber n) "i32")

/-- The double nearest to a number. -/
def Number.toReal : Number → Float
  | natural n => n.toUInt64.toFloat
  | negative n => -n.toUInt64.toFloat
  | real x => x

/-- A word that must be one of the given ones. -/
def asChoice (words : List String) (w : String) : Except Cause Value :=
  if words.contains w then .ok (.text w) else .error (.unknownWord w words)

/-! ## Values of a shape -/

/-- Members of an object that are written, each read by the field of its name; a name must not be
repeated.  Members without a field are left out. -/
def takeMembers (field? : String → Option (Value → Except Cause Value)) :
    (taken : List (String × Value)) → List (String × Value) → Except Cause (List (String × Value))
  | taken, [] => .ok taken
  | taken, (name, v) :: rest =>
    match field? name with
    | none => takeMembers field? taken rest
    | some read =>
      if taken.any (·.1 == name) then .error (.repeatedMember name)
      else do
        let v ← read v
        takeMembers field? (taken ++ [(name, v)]) rest

/-- The items of a list, each read by the same function. -/
def takeItems (item : Value → Except Cause Value) : List Value → Except Cause (List Value)
  | [] => .ok []
  | v :: rest => do
    let v ← item v
    let vs ← takeItems item rest
    pure (v :: vs)

mutual

/-- A value in the normal form of a shape. -/
def Shape.normalize : Shape → Value → Except Cause Value
  | .text, .text s => .ok (.text s)
  | .text, v => .error (.wrongType (.ofValue v) "a string")
  | .natural name, .number n => asNatural name n
  | .natural name, v => .error (.wrongType (.ofValue v) name)
  | .integer32, .number n => asInteger32 n
  | .integer32, v => .error (.wrongType (.ofValue v) "i32")
  | .real, .number n => .ok (.number (.real n.toReal))
  | .real, v => .error (.wrongType (.ofValue v) "f64")
  | .flag, .flag b => .ok (.flag b)
  | .flag, v => .error (.wrongType (.ofValue v) "a boolean")
  | .choice words, .text w => asChoice words w
  | .choice words, .object [(w, content)] => do
    let v ← asChoice words w
    match content with
    | .null => pure v
    | other => .error (.wrongType (.ofValue other) "unit")
  | .choice _, .object _ => .error (.wrongValue .object "map with a single key")
  | .choice _, v => .error (.wrongType (.ofValue v) "string or map")
  | .list item, .list items => (takeItems item.normalize items).map .list
  | .list _, v => .error (.wrongType (.ofValue v) "a sequence")
  | .optional _, .null => .ok .null
  | .optional inner, v => inner.normalize v
  | .record _ fields scattered, .object members => do
    let written ← takeMembers fields.normalize? [] members
    let here ← fields.complete written
    let others := members.filter fun m => !fields.has m.1
    let written ← takeMembers scattered.normalize? [] others
    let there ← scattered.complete written
    pure (.object (here ++ there))
  | .record name fields .none, .list items => do
    let members ← fields.normalizeList name fields.count 0 items
    if fields.count < items.length then
      .error (.wrongLength items.length "fewer elements in array")
    else pure (.object members)
  | .record name _ _, v => .error (.wrongType (.ofValue v) ("struct " ++ name))

/-- How to read the field of the name, if there is one. -/
def Fields.normalize? : Fields → String → Option (Value → Except Cause Value)
  | .none, _ => none
  | .field n _ shape others, name =>
    if n == name then some shape.normalize else others.normalize? name

/-- The members of a record of `count` fields that is written as a list, from the field with the
given position on. -/
def Fields.normalizeList (record : String) (count : Nat) :
    Fields → (position : Nat) → List Value → Except Cause (List (String × Value))
  | .none, _, _ => .ok []
  | .field n presence shape others, position, items =>
    match items with
    | [] =>
      match presence with
      | .default v => do
        let members ← others.normalizeList record count (position + 1) []
        pure ((n, v) :: members)
      | _ => .error (.wrongLength position (describeRecord record count))
    | v :: rest => do
      let v ← shape.normalize v
      let members ← others.normalizeList record count (position + 1) rest
      pure ((n, v) :: members)

end

/-! ## Texts of a shape -/

/-- The failure of a value that is not what is asked for, from the start of the value on.  It is
behind the value, but before a container. -/
def failType {α : Type} (expected : String) (input : Input) : Except Failure α :=
  let found (f : Found) (rest : Input) : Except Failure α := failAt (.wrongType f expected) rest
  match skipSpace input with
  | [] => failBehind (.endWithin .value) []
  | .char '[' :: rest => found .list (.char '[' :: rest)
  | .char '\x7b' :: rest => found .object (.char '\x7b' :: rest)
  | rest =>
    match readValue 0 rest with
    | .error f => .error f
    | .ok (v, rest) => found (.ofValue v) rest

/-- A cause that has become known behind the part that was read. -/
def placed {α : Type} (rest : Input) : Except Cause α → Except Failure α
  | .ok a => .ok a
  | .error cause => failAt cause rest

/-- A number that must satisfy a condition; messages call it by the given name. -/
def readNumberAs (expected : String) (accept : Number → Except Cause Value) : Reader Value :=
  fun input =>
    match skipSpace input with
    | .char '-' :: rest => do
      let (n, rest) ← readNumber true rest
      let v ← placed rest (accept n)
      pure (v, rest)
    | p :: rest =>
      if (digitValue? p).isSome then do
        let (n, rest) ← readNumber false (p :: rest)
        let v ← placed rest (accept n)
        pure (v, rest)
      else failType expected (p :: rest)
    | [] => failType expected []

/-- A string. -/
def readString : Reader Value := fun input =>
  match skipSpace input with
  | .char '"' :: rest => do
    let (s, rest) ← readText rest
    pure (.text s, rest)
  | rest => failType "a string" rest

/-- A truth value. -/
def readFlag : Reader Value := fun input =>
  match skipSpace input with
  | .char 't' :: rest => do
    let (_, rest) ← readWord ['r', 'u', 'e'] rest
    pure (.flag true, rest)
  | .char 'f' :: rest => do
    let (_, rest) ← readWord ['a', 'l', 's', 'e'] rest
    pure (.flag false, rest)
  | rest => failType "a boolean" rest

/-- The word `null`, and nothing else. -/
def readNull (input : Input) : Except Failure Input :=
  match skipSpace input with
  | .char 'n' :: rest => (readWord ['u', 'l', 'l'] rest).map (·.2)
  | rest => failType "unit" rest

/-- One of the given words, as a string or as the name of the only member of an object, whose value
is null. -/
def readChoice (words : List String) : Reader Value := fun input =>
  match skipSpace input with
  | [] => failBehind (.endWithin .value) []
  | .char '"' :: rest => do
    let (w, rest) ← readText rest
    let v ← placed rest (asChoice words w)
    pure (v, rest)
  | .char '\x7b' :: rest =>
    match skipSpace rest with
    | .char '"' :: rest => do
      let (w, rest) ← readText rest
      let v ← placed rest (asChoice words w)
      let rest ← readColon rest
      let rest ← readNull rest
      match skipSpace rest with
      | [] => failAt (.endWithin .object) []
      | .char '\x7d' :: rest => pure (v, rest)
      | rest => failAt .expectedValue rest
    | rest => failType "variant identifier" rest
  | rest => failBehind .expectedValue rest

/-- The members of an object, up to its closing brace: those with a field, in the order in which
they are written, and, if asked for, the others as they are.  The fuel is more than the number of
members. -/
def readFields (field? : String → Option (Reader Value)) (other? : Option (Reader Value)) :
    (fuel : Nat) → (first : Bool) → (taken others : List (String × Value)) →
    Reader (List (String × Value) × List (String × Value))
  | 0, _, _, _, input => failAt (.endWithin .object) input
  | fuel + 1, first, taken, others, input => do
    match ← nextMember first input with
    | none => pure ((taken, others), input)
    | some start =>
      let (name, rest) ← readText start
      match field? name, other? with
      | some read, _ =>
        if taken.any (·.1 == name) then failAt (.repeatedMember name) (behindObject rest)
        else
          let rest ← readColon rest
          let (v, rest) ← read rest
          readFields field? other? fuel false (taken ++ [(name, v)]) others rest
      | none, some read =>
        let rest ← readColon rest
        let (v, rest) ← read rest
        readFields field? other? fuel false taken (others ++ [(name, v)]) rest
      | none, none =>
        let rest ← readColon rest
        let rest ← skipValue rest
        readFields field? other? fuel false taken others rest

mutual

/-- A value of a shape in its normal form, with so many containers allowed inside one another. -/
def Shape.read : Shape → (depth : Nat) → Reader Value
  | .text, _ => readString
  | .natural name, _ => readNumberAs name (asNatural name)
  | .integer32, _ => readNumberAs "i32" asInteger32
  | .real, _ => readNumberAs "f64" fun n => .ok (.number (.real n.toReal))
  | .flag, _ => readFlag
  | .choice words, _ => readChoice words
  | .list item, depth => fun input =>
    match skipSpace input with
    | .char '[' :: rest =>
      if depth == 0 then failBehind .tooDeep (.char '[' :: rest)
      else do
        let (items, rest) ← readItems (item.read (depth - 1)) (rest.length + 1) true rest
        let rest ← closeList rest
        pure (.list items, rest)
    | rest => failType "a sequence" rest
  | .optional inner, depth => fun input =>
    match skipSpace input with
    | .char 'n' :: rest => do
      let (_, rest) ← readWord ['u', 'l', 'l'] rest
      pure (.null, rest)
    | rest => inner.read depth rest
  | .record name fields scattered, depth => fun input =>
    match skipSpace input, scattered with
    | .char '\x7b' :: rest, _ =>
      if depth == 0 then failBehind .tooDeep (.char '\x7b' :: rest)
      else do
        let other? :=
          match scattered with
          | .none => none
          | _ => some (readValue (depth - 1))
        let ((taken, others), rest) ←
          readFields (fields.read? (depth - 1)) other? (rest.length + 1) true [] [] rest
        let here ← placed (behindObject rest) (fields.complete taken)
        let there ← placed (behindObject rest)
          ((takeMembers scattered.normalize? [] others).bind scattered.complete)
        let rest ← closeObject rest
        pure (.object (here ++ there), rest)
    | .char '[' :: rest, .none =>
      if depth == 0 then failBehind .tooDeep (.char '[' :: rest)
      else do
        let (members, rest) ← fields.readList name fields.count (depth - 1) 0 rest
        let rest ← closeList rest
        pure (.object members, rest)
    | rest, _ => failType ("struct " ++ name) rest

/-- How to read the field of the name, if there is one. -/
def Fields.read? : Fields → (depth : Nat) → String → Option (Reader Value)
  | .none, _, _ => none
  | .field n _ shape others, depth, name =>
    if n == name then some (shape.read depth) else others.read? depth name

/-- The members of a record of `count` fields that is written as a list, from the field with the
given position on. -/
def Fields.readList (record : String) (count : Nat) :
    Fields → (depth : Nat) → (position : Nat) → Reader (List (String × Value))
  | .none, _, _, input => .ok ([], input)
  | .field n presence shape others, depth, position, input => do
    match ← nextItem (position == 0) input with
    | none =>
      match presence with
      | .default v =>
        let (members, rest) ← others.readList record count depth (position + 1) input
        pure ((n, v) :: members, rest)
      | _ => failAt (.wrongLength position (describeRecord record count)) (behindList input)
    | some start =>
      let (v, rest) ← shape.read depth start
      let (members, rest) ← others.readList record count depth (position + 1) rest
      pure ((n, v) :: members, rest)

end

/-- The value of a whole document by a shape, in its normal form. -/
def Shape.readDocument (shape : Shape) (document : Input) : Except Failure Value := do
  let (v, rest) ← shape.read greatestDepth document
  readEnd rest
  pure v

/-- Any value that is a whole document. -/
def readDocument (document : Input) : Except Failure Value := do
  let (v, rest) ← readValue greatestDepth document
  readEnd rest
  pure v

end CoverageEstimate.Json
