/-
# Arithmetic in shell scripts

A script counts with whole numbers: sums, differences, products, quotients, remainders and
comparisons, which are one if they hold and zero if not.  A variable stands for the number that its
text is, and for zero if it is none.
-/
namespace CoverageEstimate.Shell

/-- An operation on two numbers. -/
inductive Operation where
  | isEqual
  | isDifferent
  | isAtMost
  | isAtLeast
  | isBelow
  | isAbove
  | sum
  | difference
  | product
  | quotient
  | remainder
  deriving DecidableEq, Repr, Inhabited

namespace Operation

/-- The number that the operation gives.  Quotients are rounded toward zero. -/
def apply (o : Operation) (a b : Int) : Int :=
  let truth (p : Bool) : Int := if p then 1 else 0
  match o with
  | isEqual => truth (a == b)
  | isDifferent => truth (a != b)
  | isAtMost => truth (decide (a ≤ b))
  | isAtLeast => truth (decide (b ≤ a))
  | isBelow => truth (decide (a < b))
  | isAbove => truth (decide (b < a))
  | sum => a + b
  | difference => a - b
  | product => a * b
  | quotient => Int.tdiv a b
  | remainder => Int.tmod a b

/-- The operations of each level with their signs.  Those of a higher level bind more tightly; a
sign comes before those it starts with. -/
def ofLevel : Nat → List (List Char × Operation)
  | 0 => [("==".toList, isEqual), ("!=".toList, isDifferent)]
  | 1 => [("<=".toList, isAtMost), (">=".toList, isAtLeast), (['<'], isBelow), (['>'], isAbove)]
  | 2 => [(['+'], sum), (['-'], difference)]
  | 3 => [(['*'], product), (['/'], quotient), (['%'], remainder)]
  | _ => []

end Operation

/-- An arithmetic expression. -/
inductive Arithmetic where
  /-- A number. -/
  | number (n : Int)
  /-- The number that a variable stands for. -/
  | named (name : String)
  /-- An operation on the numbers of two expressions. -/
  | operation (o : Operation) (a b : Arithmetic)
  deriving DecidableEq, Repr, Inhabited

namespace Arithmetic

/-- The number of an expression, where `lookup` gives the texts of the variables. -/
def value (lookup : String → String) : Arithmetic → Int
  | number n => n
  | named name => (lookup name).toInt?.getD 0
  | operation o a b => o.apply (a.value lookup) (b.value lookup)

/-- Whether a character may stand in the name of a variable. -/
private def isNameLetter (c : Char) : Bool := c.isAlphanum || c == '_'

mutual

/-- The expression in front whose operations are of the level or a higher one, and the rest. -/
def readLevel : (fuel : Nat) → (level : Nat) → List Char → Option (Arithmetic × List Char)
  | 0, _, _ => none
  | fuel + 1, level, cs =>
    if level ≤ 3 then
      match readLevel fuel (level + 1) cs with
      | some (a, rest) => readMore fuel level a rest
      | none => none
    else
      match cs with
      | '(' :: inner =>
        match readLevel fuel 0 inner with
        | some (a, ')' :: rest) => some (a, rest)
        | _ => none
      | '-' :: rest =>
        (readLevel fuel 4 rest).map fun r => (.operation .difference (.number 0) r.1, r.2)
      | '!' :: rest =>
        (readLevel fuel 4 rest).map fun r => (.operation .isEqual r.1 (.number 0), r.2)
      | _ =>
        let cs := if cs.head? = some '$' then cs.tail else cs
        let word := cs.takeWhile isNameLetter
        let rest := cs.drop word.length
        if word.isEmpty then none
        else if word.all Char.isDigit then
          (String.ofList word).toInt?.map fun n => (.number n, rest)
        else some (.named (String.ofList word), rest)

/-- The expression that starts with `a` and goes on with operations of the level. -/
def readMore : (fuel : Nat) → (level : Nat) → Arithmetic → List Char →
    Option (Arithmetic × List Char)
  | 0, _, _, _ => none
  | fuel + 1, level, a, cs =>
    match (Operation.ofLevel level).find? fun o => o.1.isPrefixOf cs with
    | some (sign, o) =>
      match readLevel fuel (level + 1) (cs.drop sign.length) with
      | some (b, rest) => readMore fuel level (.operation o a b) rest
      | none => none
    | none => some (a, cs)

end

/-- The expression that a text is.  Each of its characters takes at most seven steps. -/
def ofText? (text : List Char) : Option Arithmetic :=
  let cs := text.filter fun c => !(" \t\n".toList.contains c)
  match readLevel (7 * cs.length + 7) 0 cs with
  | some (a, []) => some a
  | _ => none

end Arithmetic

end CoverageEstimate.Shell
