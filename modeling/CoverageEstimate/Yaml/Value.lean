/-
# Values of YAML

A document is a value.  A plain scalar may stand for a truth value, a number or nothing; other
scalars are texts unless a tag says something else.  Tags that are not of the standard stay with
their values.
-/
import CoverageEstimate.Decimal.Reader
import CoverageEstimate.Decimal.Shortest
import CoverageEstimate.Text.Quoted
import CoverageEstimate.Yaml.Event

namespace CoverageEstimate.Yaml

/-- A value. -/
inductive Value where
  | null
  | flag (b : Bool)
  | integer (n : Int)
  | real (x : Float)
  | text (s : String)
  | sequence (items : List Value)
  | mapping (members : List (Value × Value))
  | tagged (tag : String) (value : Value)
  deriving Inhabited

namespace Value

/-- The value without its tags. -/
def untagged : Value → Value
  | tagged _ v => v.untagged
  | v => v

mutual

/-- Whether two values are the same.  Two numbers of which one is an integer are not. -/
def isSame : Value → Value → Bool
  | null, null => true
  | flag a, flag b => a == b
  | integer a, integer b => a == b
  | real a, real b => a == b || (a.isNaN && b.isNaN)
  | text a, text b => a == b
  | sequence a, sequence b => areSame a b
  | mapping a, mapping b => haveSame a b
  | tagged t a, tagged u b => t == u && isSame a b
  | _, _ => false

/-- Whether two lists have the same items. -/
def areSame : List Value → List Value → Bool
  | [], [] => true
  | a :: as, b :: bs => isSame a b && areSame as bs
  | _, _ => false

/-- Whether two maps have the same members in the same order. -/
def haveSame : List (Value × Value) → List (Value × Value) → Bool
  | [], [] => true
  | (k, v) :: as, (l, w) :: bs => isSame k l && isSame v w && haveSame as bs
  | _, _ => false

end

end Value

/-- A step from the whole document to a value in it. -/
inductive PathStep where
  /-- To an item of a list. -/
  | item (index : Nat)
  /-- To the value of a key. -/
  | member (key : String)
  /-- To the value of a key that is no text. -/
  | unknown
  deriving DecidableEq, Repr, Inhabited

/-- The text of the steps to a value, the last one first. -/
def pathText : List PathStep → String
  | [] => "."
  | .item i :: outer => pathText outer ++ "[" ++ toString i ++ "]"
  | .member k :: outer => (if outer.isEmpty then "" else pathText outer ++ ".") ++ k
  | .unknown :: outer => (if outer.isEmpty then "" else pathText outer ++ ".") ++ "?"

/-- Why a document has no value. -/
inductive ValueProblem where
  /-- A map has a key twice. -/
  | repeatedKey (key : Value)
  /-- An integer is too large. -/
  | largeInteger (n : Int)
  /-- A scalar is not what its tag says. -/
  | wrongScalar (text expected : String)
  /-- A tag is empty. -/
  | emptyTag
  deriving Inhabited

/-- The text of a problem. -/
def ValueProblem.text : ValueProblem → String
  | repeatedKey key =>
    "duplicate entry " ++
      match key with
      | .null => "with null key"
      | .flag b => "with key `" ++ (if b then "true" else "false") ++ "`"
      | .integer n => "with key " ++ toString n
      | .real x => "with key " ++ Decimal.documentText x
      | .text s => "with key " ++ Text.quoted s
      | _ => "in YAML map"
  | largeInteger n =>
    "invalid type: integer `" ++ toString n ++ "` as " ++ (if n < 0 then "i128" else "u128") ++
      ", expected any YAML value"
  | wrongScalar text expected =>
    "invalid value: string " ++ Text.quoted text ++ ", expected " ++ expected
  | emptyTag => "empty YAML tag is not allowed"

/-- Why a text is not one document with a value. -/
inductive DocumentFault where
  /-- The text is malformed. -/
  | malformed (fault : Fault)
  /-- A value cannot be taken for what it is written as. -/
  | badValue (problem : ValueProblem) (path : List PathStep) (mark : Mark)
  /-- An alias repeats a node that there is not. -/
  | unknownAnchor (mark : Mark)
  /-- Lists and maps are nested too deeply. -/
  | tooDeep (mark : Mark)
  /-- Aliases repeat too much. -/
  | tooManyRepetitions
  /-- The document ends where a value is asked for. -/
  | noValue
  /-- There is more than one document. -/
  | moreDocuments
  deriving Inhabited

/-- The message for a fault. -/
def DocumentFault.message : DocumentFault → String
  | malformed fault => fault.message
  | badValue problem path mark =>
    (if path.isEmpty then "" else pathText path ++ ": ") ++ problem.text ++ placeText mark
  | unknownAnchor mark => "unknown anchor" ++ placeText mark
  | tooDeep mark => "recursion limit exceeded" ++ placeText mark
  | tooManyRepetitions => "repetition limit exceeded"
  | noValue => "EOF while parsing a value"
  | moreDocuments =>
    "deserializing from YAML containing more than one document is not supported"
where
  placeText (mark : Mark) : String := if mark.isFirst then "" else " at " ++ mark.text

/-! ## Scalars -/

/-- The text without a character in front, if it starts with it. -/
def without? (c : Char) : List Char → Option (List Char)
  | d :: rest => if c = d then some rest else none
  | [] => none

/-- The number that digits of a base stand for; there has to be one. -/
def numberIn? (base : Nat) (digits : List Char) : Option Nat :=
  if digits.isEmpty then none
  else
    digits.foldl
      (fun n c => do
        let d ← hexDigit? c
        if d < base then return (← n) * base + d else none)
      (some 0)

/-- Whether a text is made of digits that start with a zero and are more than one: it is no number. -/
def hasLeadingZero (text : List Char) : Bool :=
  let unsigned := match text with
    | '-' :: rest => rest
    | '+' :: rest => rest
    | all => all
  1 < unsigned.length && unsigned.head? == some '0' && unsigned.all Char.isDigit

/-- The number that a text without a sign stands for, in one of four bases. -/
def unsignedInteger? (text : List Char) : Option Nat :=
  match text with
  | '0' :: 'x' :: rest => numberIn? 16 rest
  | '0' :: 'o' :: rest => numberIn? 8 rest
  | '0' :: 'b' :: rest => numberIn? 2 rest
  | _ => if hasLeadingZero text then none else numberIn? 10 text

/-- The integer that a text stands for. -/
def integer? (text : List Char) : Option Int :=
  match text with
  | '-' :: rest => (unsignedInteger? rest).map fun n => -(n : Int)
  | '+' :: rest => (unsignedInteger? rest).map fun n => (n : Int)
  | _ => (unsignedInteger? text).map fun n => (n : Int)

/-- The number that is not an integer that a text stands for. -/
def scalarReal? (text : List Char) : Option Float :=
  let (hasPlus, unsigned) := match text with
    | '+' :: rest => (true, rest)
    | all => (false, all)
  if hasPlus && (unsigned.head? == some '-' || unsigned.head? == some '+') then none
  else if [".inf", ".Inf", ".INF"].contains (String.ofList unsigned) then some (1.0 / 0.0)
  else if ["-.inf", "-.Inf", "-.INF"].contains (String.ofList text) then some (-(1.0 / 0.0))
  else if [".nan", ".NaN", ".NAN"].contains (String.ofList text) then some (0.0 / 0.0)
  else (Decimal.real? unsigned).filter Float.isFinite

/-- Whether a text stands for nothing. -/
def isNull (text : String) : Bool := ["null", "Null", "NULL", "~"].contains text

/-- The truth value that a text stands for. -/
def flag? (text : String) : Option Bool :=
  if ["true", "True", "TRUE"].contains text then some true
  else if ["false", "False", "FALSE"].contains text then some false
  else none

/-- The value of an integer, which must fit into 64 bits.  One that does not fit into 128 bits is not
taken for an integer at all. -/
def integerValue? (n : Int) : Option (Except ValueProblem Value) :=
  if -(Nat.pow 2 63 : Int) ≤ n ∧ n < Nat.pow 2 64 then some (.ok (.integer n))
  else if -(Nat.pow 2 127 : Int) ≤ n ∧ n < Nat.pow 2 128 then some (.error (.largeInteger n))
  else none

/-- The value of a plain scalar. -/
def plainValue (text : String) : Except ValueProblem Value :=
  if text = "" || isNull text then .ok .null
  else
    match flag? text with
    | some b => .ok (.flag b)
    | none =>
      match (integer? text.toList).bind integerValue? with
      | some v => v
      | none =>
        if hasLeadingZero text.toList then .ok (.text text)
        else
          match scalarReal? text.toList with
          | some x => .ok (.real x)
          | none => .ok (.text text)

/-- The beginning of the tags of the standard. -/
def standardTag (name : String) : String := "tag:yaml.org,2002:" ++ name

/-- The value of a scalar.  A tag that is not of the standard has been taken off it. -/
def scalarValue (tag : Option String) (text : String) (isPlain : Bool) :
    Except ValueProblem Value :=
  match tag with
  | none => if isPlain then plainValue text else .ok (.text text)
  | some tag =>
    if tag = standardTag "bool" then
      match flag? text with
      | some b => .ok (.flag b)
      | none => .error (.wrongScalar text "a boolean")
    else if tag = standardTag "int" then
      match (integer? text.toList).bind integerValue? with
      | some v => v
      | none => .error (.wrongScalar text "an integer")
    else if tag = standardTag "float" then
      match scalarReal? text.toList with
      | some x => .ok (.real x)
      | none => .error (.wrongScalar text "a float")
    else if tag = standardTag "null" then
      if isNull text then .ok .null else .error (.wrongScalar text "null")
    else .ok (.text text)

/-- The name of a tag that is not of the standard. -/
def ownTag? (tag : Option String) : Option String :=
  match tag.map String.toList with
  | some ('!' :: name) => some (String.ofList name)
  | _ => none

/-! ## Documents -/

/-- The events of a document, with the places that its aliases repeat, and why there are no more of
them. -/
structure Document where
  events : Array Event
  /-- The place of the node that the alias at a place repeats. -/
  targets : List (Nat × Nat)
  /-- Why the events end. -/
  fault : DocumentFault

/-- The anchor that an event gives to its node. -/
def EventKind.anchor? : EventKind → Option String
  | .scalar anchor _ _ _ => anchor
  | .sequenceStart anchor _ => anchor
  | .mappingStart anchor _ => anchor
  | _ => none

/-- The document of some events that end in a fault.  `anchors` are the places of the anchors so far,
the last one first. -/
def Document.ofEvents (fault : DocumentFault) :
    List Event → (events : Array Event) → (anchors : List (String × Nat)) →
    (targets : List (Nat × Nat)) → Document
  | [], events, _, targets => ⟨events, targets, fault⟩
  | e :: rest, events, anchors, targets =>
    match e.kind with
    | .reference name =>
      match anchors.find? fun a => a.1 == name with
      | some (_, place) =>
        ofEvents fault rest (events.push e) anchors ((events.size, place) :: targets)
      | none => ⟨events, targets, .unknownAnchor e.mark⟩
    | kind =>
      let anchors := match kind.anchor? with
        | some name => (name, events.size) :: anchors
        | none => anchors
      ofEvents fault rest (events.push e) anchors targets

/-- How deep lists and maps may be nested. -/
def depthLimit : Nat := 128

/-- Finding a value: it counts how often an alias has been followed. -/
abbrev Find := StateT Nat (Except DocumentFault)

/-- Puts a problem with a value into its place. -/
def placed (path : List PathStep) (mark : Mark) : Except ValueProblem α → Find α
  | .ok a => return a
  | .error problem => throw (.badValue problem path mark)

mutual

/-- The value that starts at a place, and the place behind it.  `keepsTag` tells whether a tag that is
not of the standard has still to be put around the value. -/
def valueAt (d : Document) : (fuel depth : Nat) → List PathStep → (keepsTag : Bool) → Nat →
    Find (Value × Nat)
  | 0, _, _, _, _ => throw d.fault
  | fuel + 1, depth, path, keepsTag, place =>
    match d.events[place]? with
    | none => throw d.fault
    | some e =>
      let own (tag : Option String) : Option String := if keepsTag then ownTag? tag else none
      let wrapped (name : String) : Find (Value × Nat) := do
        if name == "" then throw (.badValue .emptyTag path e.mark)
        let (v, behind) ← valueAt d fuel depth path false place
        return (.tagged name v, behind)
      let deeper (k : Nat → Find (Value × Nat)) : Find (Value × Nat) :=
        match depth with
        | 0 => throw (.tooDeep e.mark)
        | left + 1 => k left
      match e.kind with
      | .reference _ => do
        let count := (← get) + 1
        set count
        if d.events.size * 100 < count then throw .tooManyRepetitions
        match d.targets.find? fun t => t.1 == place with
        | some (_, target) =>
          let (v, _) ← valueAt d fuel depth path true target
          return (v, place + 1)
        | none => throw (.unknownAnchor e.mark)
      | .scalar _ tag text isPlain =>
        match own tag with
        | some name => wrapped name
        | none => do
          let tag := if (ownTag? tag).isSome then none else tag
          let v ← placed path e.mark (scalarValue tag text isPlain)
          return (v, place + 1)
      | .sequenceStart _ tag =>
        match own tag with
        | some name => wrapped name
        | none => deeper fun left => do
          let (items, behind) ← itemsAt d fuel left path 0 (place + 1)
          return (.sequence items, behind)
      | .mappingStart _ tag =>
        match own tag with
        | some name => wrapped name
        | none => deeper fun left => do
          let (members, behind) ← membersAt d fuel left path e.mark [] (place + 1)
          return (.mapping members, behind)
      | _ => throw d.fault

/-- The items of a list from a place on, the first of which has the given index, and the place behind
the list. -/
def itemsAt (d : Document) : (fuel depth : Nat) → List PathStep → (index : Nat) → Nat →
    Find (List Value × Nat)
  | 0, _, _, _, _ => throw d.fault
  | fuel + 1, depth, path, index, place =>
    match d.events[place]? with
    | none => throw d.fault
    | some e =>
      if e.kind == .sequenceEnd then return ([], place + 1)
      else do
        let (v, behind) ← valueAt d fuel depth (.item index :: path) true place
        let (others, last) ← itemsAt d fuel depth path (index + 1) behind
        return (v :: others, last)

/-- The members of a map from a place on, and the place behind the map.  `mark` is the start of the map
and `earlier` its members so far. -/
def membersAt (d : Document) : (fuel depth : Nat) → List PathStep → Mark →
    (earlier : List (Value × Value)) → Nat → Find (List (Value × Value) × Nat)
  | 0, _, _, _, _, _ => throw d.fault
  | fuel + 1, depth, path, mark, earlier, place =>
    match d.events[place]? with
    | none => throw d.fault
    | some e =>
      if e.kind == .mappingEnd then return (earlier, place + 1)
      else do
        let step : PathStep := match e.kind with
          | .scalar _ _ text _ => .member text
          | _ => .unknown
        let (key, behind) ← valueAt d fuel depth path true place
        if earlier.any fun m => m.1.isSame key then
          throw (.badValue (.repeatedKey key) path mark)
        let (v, behind) ← valueAt d fuel depth (step :: path) true behind
        membersAt d fuel depth path mark (earlier ++ [(key, v)]) behind

end

/-- Whether an event belongs to the content of a document. -/
def Event.isContent (e : Event) : Bool := e.kind != .documentStart && e.kind != .documentEnd

/-- The value of a text that is one document; a text without a document has the value of nothing. -/
def Value.ofText (text : String) : Except DocumentFault Value :=
  let (all, fault) := events text
  let first := all.takeWhile fun e => e.kind != .documentEnd
  let behind := all.drop (first.length + 1)
  let content := first.filter Event.isContent
  let isComplete := decide (first.length < all.length)
  if all.isEmpty && fault.isNone then .ok .null
  else
    let last : DocumentFault :=
      match fault with
      | some f => if isComplete then .noValue else .malformed f
      | none => .noValue
    let d := Document.ofEvents last content #[] [] []
    let fuel := (depthLimit + 2) * (d.events.size + 3)
    match (valueAt d fuel depthLimit [] true 0).run 0 with
    | .error e => .error e
    | .ok ((v, _), _) =>
      match d.fault with
      | .noValue => if behind.isEmpty && fault.isNone then .ok v else .error .moreDocuments
      | f => .error f

end CoverageEstimate.Yaml
