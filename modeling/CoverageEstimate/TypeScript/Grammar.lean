/-
# The grammar of TypeScript

The rules by which a source falls into statements, expressions and types.  They are as loose as the
analysis allows: operators have no precedence among each other, and the inside of a type is looked
at only as far as it takes to find where the type stops.

A statement that matches no rule is passed over one lexeme at a time, so that a fault in a source
hides no more than it must.
-/
import CoverageEstimate.TypeScript.Rule

namespace CoverageEstimate.TypeScript

/-- The names of the rules. -/
inductive Construct where
  | program
  | statement
  | declaration
  | block
  | parenthesized
  | variableList
  | declarator
  | importing
  | exporting
  | switchCase
  | expression
  | sequence
  | operand
  | suffixed
  | primary
  | arrow
  | arguments
  | template
  | object
  | parameters
  | binding
  | memberName
  | callSignature
  | functionTail
  | decorator
  | classTail
  | classMember
  | type
  | typeOperand
  | typeArguments
  | typeParameters
  | markup
  deriving DecidableEq, Repr

namespace Grammar

/-- The rules of the language. -/
abbrev R := Rule Construct

/-- One rule after the other. -/
def all : List R → R
  | [] => .nothing
  | [a] => a
  | a :: rest => .seq a (all rest)

/-- The first of the rules that matches. -/
def any : List R → R
  | [] => .absent .nothing
  | [a] => a
  | a :: rest => .alt a (any rest)

/-- The rule, or nothing. -/
def opt (a : R) : R := .alt a .nothing

/-- A fixed word. -/
def w (text : String) : R := .lex (.word text)

/-- A fixed mark. -/
def m (text : String) : R := .lex (.mark text)

/-- One of some words. -/
def words (texts : List String) : R := any (texts.map w)

/-- One of some marks. -/
def anyMark (texts : List String) : R := any (texts.map m)

/-- No line ends here. -/
def sameLine : R := .lex .sameLine

/-- A node without a kind of its own. -/
def other (a : R) : R := .node .other a

/-- The rule, and then more of it behind commas. -/
def commas (a : R) : R := .seq a (.many (.seq (m ",") a))

/-- Items and commas in any order, between two marks. -/
def loose (opener : String) (item : R) (closer : String) : R :=
  all [m opener, .many (.alt (m ",") item), m closer]

/-- The brace that closes a block.  It may be missing at the end of the source. -/
def blockEnd : R := .alt (m "\x7d") (.lex .endOfSource)

/-- A bracketed text that is not looked into. -/
def bracketed (opener : Char) : R := .lex (.bracketed opener)

/-- The end of a statement. -/
def ending : R := .alt (m ";") (.lex .impliedSemicolon)

/-- Reads the name of a variable. -/
def identifier : R := .lex .identifier

/-- An initial value. -/
def initializer : R := all [m "=", .ref .expression]

/-- A type behind a colon. -/
def annotation : R := all [m ":", .ref .type]

/-- The name behind a dot. -/
def property : R := .part .property (.alt (.lex .privateName) (.lex .anyName))

/-- The word that makes a function asynchronous. -/
def asyncMark : R := all [w "async", sameLine]

/-- Names between dots. -/
def dotted : R := all [identifier, .many (all [m ".", .lex .anyName])]

/-! ## Expressions -/

/-- The operators between two operands. -/
def binaryMarks : List String :=
  ["=", "+", "-", "*", "/", "%", "**", "&&", "||", "??", "==", "!=", "===", "!==", "<", ">", "<=",
    ">=", "<<", ">>", ">>>", "&", "|", "^", "+=", "-=", "*=", "/=", "%=", "**=", "<<=", ">>=",
    ">>>=", "&=", "|=", "^=", "&&=", "||=", "??="]

/-- What extends an operand to a larger expression. -/
def binaryStep : R :=
  any [
    .wrap .other none (all [anyMark binaryMarks, .ref .operand]),
    .wrap .other none (all [words ["in", "instanceof"], .ref .operand]),
    all [sameLine, .wrap .other none (all [w "as", .alt (w "const") (.ref .type)])],
    all [sameLine, .wrap .other none (all [w "satisfies", .ref .type])],
    .wrap .other none (all [m "?", .ref .expression, m ":", .ref .expression]),
    .wrap .other none (all [m "?", .ref .parenthesized, m ":", .ref .expression])]

/-- An operand: an operator before another operand, or an expression without operators between its
parts. -/
def operand : R :=
  any [
    other (all [anyMark ["!", "~", "-", "+", "++", "--"], .ref .operand]),
    other (all [words ["typeof", "void", "delete", "await"], .ref .operand]),
    other (all [w "yield", opt (.alt (all [m "*", .ref .expression])
      (all [sameLine, .ref .expression]))]),
    .ref .suffixed,
    all [.lex .privateName, .ahead (w "in")],
    all [.lex .markupForbidden,
      other (all [m "<", .ref .type, .lex .closingAngle, .ref .operand])]]

/-- A call of the node before. -/
def call (a : R) : R := .wrap .callExpression (some .function) a

/-- The arguments of a call. -/
def arguments : R := .part .arguments (.ref .arguments)

/-- The marks behind type arguments that do not belong to a call. -/
def behindTypeArguments : R :=
  .alt (anyMark [")", "]", "\x7d", ";", ",", ":", "."]) (.lex .endOfSource)

/-- What extends a primary expression: the access to a member, a call, and the like. -/
def suffixStep : R :=
  any [
    .wrap .memberExpression none (all [.alt (m ".") (m "?."), property]),
    call arguments,
    .wrap .other none (all [opt (m "?."), m "[", .ref .sequence, m "]"]),
    call (all [m "?.", opt (.ref .typeArguments), arguments]),
    call (all [.ref .typeArguments, arguments]),
    call (.part .arguments (.ref .template)),
    all [sameLine, .wrap .other none (anyMark ["!", "++", "--"])],
    .wrap .other none (all [.ref .typeArguments, .ahead behindTypeArguments])]

/-- What extends the class of an object to be created. -/
def memberStep : R :=
  any [
    .wrap .memberExpression none (all [m ".", property]),
    .wrap .other none (all [m "[", .ref .sequence, m "]"]),
    all [sameLine, .wrap .other none (m "!")]]

/-- A function in an expression; its name may be missing. -/
def functionExpression : R :=
  any [
    .node .generatorFunction (all [opt asyncMark, w "function", m "*",
      opt (.part .name identifier), .ref .functionTail]),
    .node .functionExpression (all [opt asyncMark, w "function", opt (.part .name identifier),
      .ref .functionTail])]

/-- A class in an expression; its name may be missing. -/
def classExpression : R :=
  other (all [.many (.ref .decorator), w "class", opt (all [.absent (w "implements"), identifier]),
    .ref .classTail])

/-- An object to be created. -/
def creation : R :=
  other (all [w "new", .alt (all [m ".", w "target"])
    (all [.chain (.ref .primary) memberStep, opt (.ref .typeArguments), opt (.ref .arguments)])])

/-- An item of a list. -/
def listItem : R := .alt (other (all [m "...", .ref .expression])) (.ref .expression)

/-- The arguments of a call between parentheses.  The closing one may be missing at the end of a
statement. -/
def argumentList : R :=
  all [m "(", .many (.alt (m ",") listItem), .alt (m ")") (.ahead (m ";"))]

/-- An expression that is not extended. -/
def primary : R :=
  any [
    all [.lex .markupAllowed, .ref .markup],
    .ref .arrow,
    functionExpression,
    identifier,
    .lex .string,
    .lex .number,
    other (words ["this", "super", "null", "true", "false", "undefined"]),
    .ref .parenthesized,
    .ref .template,
    other (loose "[" listItem "]"),
    .ref .object,
    creation,
    other (all [w "import", opt (all [m ".", w "meta"])]),
    classExpression,
    .lex .regex]

/-- The body of an arrow function. -/
def arrowBody : R := all [m "=>", .part .body (.alt (.ref .block) (.ref .expression))]

/-- A function with an arrow. -/
def arrow : R :=
  .node .arrowFunction (any [
    all [identifier, arrowBody],
    all [asyncMark, identifier, arrowBody],
    all [opt asyncMark, .ref .callSignature, arrowBody]])

/-- A template: text with expressions in it. -/
def template : R :=
  other (all [m "\x60",
    .many (.alt (.lex .templateChars)
      (all [.lex .substitutionStart, .ref .sequence, m "\x7d"])),
    .lex .templateEnd])

/-! ## Members -/

/-- The start of the name of a member. -/
def memberNameStart : R :=
  any [.lex .anyName, .lex .privateName, .lex .string, .lex .number, anyMark ["[", "*"]]

/-- One of some words, where the name of a member follows on the same line. -/
def modifier (texts : List String) : R :=
  all [words texts, sameLine, .ahead memberNameStart]

/-- The name of a member. -/
def memberName : R :=
  any [.lex .anyName, .lex .string, .lex .number, .lex .privateName,
    other (all [m "[", .ref .expression, m "]"])]

/-- A member of an object. -/
def objectMember : R :=
  any [
    other (all [m "...", .ref .expression]),
    .node .methodDefinition (all [opt (modifier ["async"]), opt (modifier ["get", "set"]),
      opt (m "*"), .part .name (.ref .memberName), opt (m "?"), .ref .functionTail]),
    other (all [.ref .memberName, m ":", .ref .expression]),
    other (all [identifier, opt initializer])]

/-- The words before a method of a class. -/
def methodModifiers : R :=
  .many (.alt
    (modifier ["public", "private", "protected", "static", "override", "readonly", "async", "get",
      "set"])
    (m "*"))

/-- The words before any other member of a class. -/
def fieldModifiers : R :=
  .many (.alt
    (modifier ["public", "private", "protected", "static", "override", "readonly", "async", "get",
      "set", "declare", "abstract", "accessor"])
    (m "*"))

/-- The end of a member of a class. -/
def memberEnding : R := .alt (m ",") ending

/-- A member of a class.  A name that ends its line is the name of a field, whatever follows; a
parameter list that follows it makes a method without a name. -/
def classMember : R :=
  any [
    m ";",
    .ref .decorator,
    other (all [w "static", .part .body (.ref .block)]),
    .node .methodDefinition (all [methodModifiers, .part .name (.ref .memberName), opt (m "?"),
      .alt sameLine (.ahead (m "<")), .ref .functionTail]),
    other (all [fieldModifiers, .ref .memberName, opt (m "?"), .alt sameLine (.ahead (m "<")),
      .ref .callSignature, memberEnding]),
    other (all [fieldModifiers, .ref .memberName, opt (anyMark ["?", "!"]), opt annotation,
      opt initializer, memberEnding]),
    other (all [fieldModifiers, bracketed '[', annotation, memberEnding]),
    .node .methodDefinition (all [.part .name (.lex .missingName), .ref .functionTail])]

/-- What follows the name of a class: type parameters, the class it extends, the interfaces it
implements, and its members. -/
def classTail : R :=
  all [opt (.ref .typeParameters),
    opt (all [w "extends", commas (all [.ref .suffixed, opt (.ref .typeArguments)])]),
    opt (all [w "implements", commas (.ref .type)]),
    .part .body (other (all [m "\x7b", .many (.alt (.ref .classMember) (.lex (.faulty false))),
      blockEnd]))]

/-- A decorator. -/
def decorator : R :=
  other (all [m "@", .alt (.ref .parenthesized) (.chain identifier (any [
    .wrap .memberExpression none (all [m ".", property]),
    call arguments,
    call (all [.ref .typeArguments, arguments])]))])

/-! ## Parameters and patterns -/

/-- The rest of what a pattern takes apart. -/
def restBinding : R := other (all [m "...", .ref .binding])

/-- A name, or a pattern of names. -/
def binding : R :=
  any [
    identifier,
    other (loose "\x7b" (any [
      restBinding,
      all [.ref .memberName, m ":", .ref .binding, opt initializer],
      all [identifier, opt initializer]]) "\x7d"),
    other (loose "[" (.alt restBinding (all [.ref .binding, opt initializer])) "]")]

/-- A parameter. -/
def parameter : R :=
  all [.many (.ref .decorator),
    .many (all [words ["public", "private", "protected", "override", "readonly"],
      .ahead (.alt identifier (anyMark ["[", "\x7b"]))]),
    any [restBinding, other (w "this"), .ref .binding],
    opt (m "?"), opt annotation, opt initializer]

/-! ## Types -/

/-- A word before a type. -/
def typeMark (text : String) : R :=
  all [w text, sameLine,
    .ahead (any [.lex .anyName, .lex .string, anyMark ["(", "[", "\x7b", "\x60", "<"]])]

/-- The name of a type. -/
def typeName : R :=
  all [.absent (w "extends"), .lex .anyName,
    .many (all [m ".", .alt (.lex .anyName) (.lex .privateName)])]

/-- A type without operators. -/
def primaryType : R :=
  any [
    all [opt (w "new"), opt (.ref .typeParameters), .ref .parameters, m "=>", .ref .type],
    bracketed '(', bracketed '[', bracketed '\x7b', bracketed '\x60',
    .lex .string, all [opt (m "-"), .lex .number],
    all [w "import", bracketed '(', .many (all [m ".", .lex .anyName]), opt (.ref .typeArguments)],
    all [typeName, opt (.ref .typeArguments), opt (all [sameLine, w "is", .ref .type])]]

/-- A type without operators between its parts. -/
def typeOperand : R :=
  all [
    .many (any (["keyof", "unique", "readonly", "infer", "asserts", "typeof", "abstract"].map
      typeMark)),
    primaryType,
    .many (all [sameLine, bracketed '['])]

/-- A type. -/
def typ : R :=
  all [opt (anyMark ["|", "&"]), .ref .typeOperand,
    .many (all [anyMark ["|", "&"], .ref .typeOperand]),
    opt (all [w "extends", .ref .type, opt (all [m "?", .ref .type, m ":", .ref .type])])]

/-- The type arguments of a call or of a type. -/
def typeArguments : R :=
  all [m "<", commas (.ref .type), opt (m ","), .lex .closingAngle]

/-- The parameters of a generic type or function. -/
def typeParameters : R :=
  all [m "<",
    .many (.alt (m ",") (all [
      .many (all [words ["const", "in", "out"], .ahead (.lex .anyName)]),
      identifier, opt (all [w "extends", .ref .type]), opt (all [m "=", .ref .type])])),
    .lex .closingAngle]

/-! ## Markup -/

/-- The name of an element or an attribute. -/
def markupName : R :=
  all [.lex .markupName, .many (all [anyMark [".", ":"], .lex .markupName])]

/-- An expression in markup; it may be missing. -/
def markupExpression : R :=
  other (all [m "\x7b", opt (all [opt (m "..."), .ref .sequence]), m "\x7d"])

/-- An attribute. -/
def markupAttribute : R :=
  .alt markupExpression
    (all [markupName,
      opt (all [m "=", any [.lex .markupString, markupExpression, .ref .markup]])])

/-- What stands between two tags. -/
def markupContent : R :=
  .many (any [.lex .markupText, markupExpression, .ref .markup])

/-- An element. -/
def markup : R :=
  .alt
    (other (all [m "<", markupName, opt (.ref .typeArguments), .many markupAttribute,
      .alt (all [m "/", .lex .closingAngle])
        (all [.lex .closingAngle, markupContent, m "<", m "/", markupName, .lex .closingAngle])]))
    (other (all [m "<", .lex .closingAngle, markupContent, m "<", m "/", .lex .closingAngle]))

/-! ## Statements -/

/-- A function, a class, or one of the declarations of types. -/
def declaration : R :=
  any [
    .node .generatorDeclaration (all [opt asyncMark, w "function", m "*", .part .name identifier,
      .ref .functionTail]),
    .node .functionDeclaration (all [opt asyncMark, w "function", .part .name identifier,
      .ref .functionTail]),
    other (all [opt asyncMark, w "function", opt (m "*"), identifier, .ref .callSignature, ending]),
    .node .classDeclaration (all [.many (.ref .decorator), w "class", .part .name identifier,
      .ref .classTail]),
    .node .abstractClassDeclaration (all [.many (.ref .decorator), w "abstract", w "class",
      .part .name identifier, .ref .classTail]),
    other (all [opt (w "const"), w "enum", identifier,
      loose "\x7b" (all [.ref .memberName, opt initializer]) "\x7d"]),
    other (all [.ref .variableList, ending]),
    other (all [w "interface", identifier, opt (.ref .typeParameters),
      opt (all [w "extends", commas (.ref .type)]), bracketed '\x7b']),
    other (all [w "type", identifier, opt (.ref .typeParameters), m "=", .ref .type, ending]),
    other (all [words ["namespace", "module"], sameLine, .alt dotted (.lex .string),
      .alt (.ref .block) ending]),
    other (all [w "declare", .alt (all [w "global", .ref .block]) (.ref .declaration)])]

/-- Variables and their initial values. -/
def variableList : R := all [words ["const", "let", "var"], commas (.ref .declarator)]

/-- A variable and its initial value. -/
def declarator : R :=
  .node .variableDeclarator (all [.part .name (.ref .binding), opt (m "!"), opt annotation,
    opt (all [m "=", .part .value (.ref .expression)])])

/-- The attributes of an import. -/
def importAttributes : R := opt (all [words ["with", "assert"], bracketed '\x7b'])

/-- An import. -/
def importing : R :=
  other (all [w "import", .absent (anyMark ["(", "."]), any [
    all [.lex .string, importAttributes, ending],
    all [opt (w "type"), identifier, m "=", w "require", bracketed '(', ending],
    all [opt (w "type"), identifier, m "=", dotted, ending],
    all [.many (any [m ",", bracketed '\x7b', all [m "*", w "as", identifier],
        all [.absent (all [w "from", .lex .string]), identifier]]),
      w "from", .lex .string, importAttributes, ending]]])

/-- An export. -/
def exporting : R :=
  other (all [.many (.ref .decorator), w "export", any [
    all [w "default", .alt (.ref .declaration) (all [.ref .expression, ending])],
    .ref .declaration,
    .ref .importing,
    all [opt (w "type"), m "*", opt (all [w "as", .alt (.lex .anyName) (.lex .string)]), w "from",
      .lex .string, importAttributes, ending],
    all [opt (w "type"), bracketed '\x7b', opt (all [w "from", .lex .string, importAttributes]),
      ending],
    all [m "=", .ref .expression, ending],
    all [w "as", w "namespace", identifier, ending]]])

/-- The head of a loop over the items or the names of a value. -/
def loopHead : R :=
  all [
    .alt (all [words ["const", "let", "var"], .ref .binding, opt annotation, opt initializer])
      (.ref .suffixed),
    words ["of", "in"], .ref .sequence]

/-- The head of a loop that counts. -/
def countingHead : R :=
  all [opt (.alt (other (.ref .variableList)) (.ref .sequence)), m ";", opt (.ref .sequence), m ";",
    opt (.ref .sequence)]

/-- A case of a switch. -/
def switchCase : R :=
  other (all [.alt (all [w "case", .ref .sequence]) (w "default"), m ":",
    .many (.ref .statement)])

/-- A statement. -/
def statement : R :=
  any [
    .ref .block,
    other (m ";"),
    other (all [w "if", .ref .parenthesized, .ref .statement,
      opt (all [w "else", .ref .statement])]),
    other (all [w "for", opt (w "await"), m "(", .alt loopHead countingHead, m ")",
      .ref .statement]),
    other (all [w "while", .ref .parenthesized, .ref .statement]),
    other (all [w "do", .ref .statement, w "while", .ref .parenthesized, opt ending]),
    other (all [w "switch", .ref .parenthesized, m "\x7b", .many (.ref .switchCase), m "\x7d"]),
    other (all [w "try", .ref .block,
      opt (all [w "catch", opt (all [m "(", .ref .binding, opt annotation, m ")"]), .ref .block]),
      opt (all [w "finally", .ref .block])]),
    other (all [w "return", .alt (all [sameLine, .ref .sequence, ending]) ending]),
    other (all [w "throw", .ref .sequence, ending]),
    other (all [words ["break", "continue"], opt (all [sameLine, identifier]), ending]),
    other (all [w "debugger", ending]),
    other (all [w "with", .ref .parenthesized, .ref .statement]),
    .ref .importing,
    .ref .exporting,
    .ref .declaration,
    other (all [identifier, m ":", .ref .statement]),
    other (all [.ref .sequence, ending])]

/-- A whole source. -/
def program : R :=
  other (all [opt (.lex .interpreterLine),
    .many (.alt (.ref .statement) (.lex (.faulty true))), .lex .endOfSource])

/-- The rule of each name. -/
def rules : Construct → R
  | .program => program
  | .statement => statement
  | .declaration => declaration
  | .block =>
    other (all [m "\x7b", .many (.alt (.ref .statement) (.lex (.faulty false))), blockEnd])
  | .parenthesized => other (all [m "(", .ref .sequence, opt annotation, m ")"])
  | .variableList => variableList
  | .declarator => declarator
  | .importing => importing
  | .exporting => exporting
  | .switchCase => switchCase
  | .expression => .chain (.ref .operand) binaryStep
  | .sequence => commas (.ref .expression)
  | .operand => operand
  | .suffixed => .chain (.ref .primary) suffixStep
  | .primary => primary
  | .arrow => arrow
  | .arguments => .node .arguments argumentList
  | .template => template
  | .object => other (loose "\x7b" objectMember "\x7d")
  | .parameters => other (loose "(" parameter ")")
  | .binding => binding
  | .memberName => memberName
  | .callSignature =>
    all [opt (.ref .typeParameters), .ref .parameters, opt annotation]
  | .functionTail => all [.ref .callSignature, .part .body (.ref .block)]
  | .decorator => decorator
  | .classTail => classTail
  | .classMember => classMember
  | .type => typ
  | .typeOperand => typeOperand
  | .typeArguments => typeArguments
  | .typeParameters => typeParameters
  | .markup => markup

end Grammar

/-- How deep a parse of a source may go: more than any parse of it does. -/
def parseFuel (src : Source) : Nat := 200 * (src.size + 10)

/-- The parse tree of a source.  It is a single node without children when nothing matches. -/
def parse (markup : Bool) (src : Source) : Node :=
  match (Rule.ref Construct.program).parse ⟨src, markup⟩ Grammar.rules (parseFuel src) none 0 with
  | some (nodes, _) => .mk .other none 0 src.size nodes
  | none => leaf .other 0 src.size

end CoverageEstimate.TypeScript
