import DocModel.Json.Value
import DocModel.Template.Lexeme
import DocModel.Template.Tree

/-!
Reading expressions. An expression is read by its outermost operation: `or`, then `and`, then a
negation, then a comparison or membership, then arithmetic, then a single operand. The parts that
may stand inside other parts are named by `Part`, and `Part.read` ties them together; it takes the
deepest nesting that it allows for, and the length of the text is always enough.
-/

namespace DocModel.Template

open Scanner

variable {α : Type}

/-- The parts of expressions that stand inside of other parts. -/
inductive Part where
  /-- Operands that are joined by `or` and `and`. -/
  | logic
  /-- An operand of these: a value or comparison, perhaps negated. -/
  | value
  /-- Operands that are joined by arithmetic. -/
  | sum
  /-- An array with the filters behind it. -/
  | array

/-- Operands behind a first one, each with an operation before it, grouped to the left. -/
def chainFrom (first : α) (operand : Scanner α) (operation : Scanner (α → α → α)) :
    Scanner α := do
  let more ← many (do
    let combine ← operation
    let right ← operand
    return (combine, right))
  return more.foldl (fun left step => step.1 left step.2) first

/-- Operands with operations between them, grouped to the left. -/
def chain (operand : Scanner α) (operation : Scanner (α → α → α)) : Scanner α := do
  let first ← operand
  chainFrom first operand operation

/-- Readings with commas between them and perhaps behind the last one. -/
def trailingList (p : Scanner α) : Scanner (List α) := do
  let items ← commaList p
  let _ ← maybe (symbol ",")
  return items

/-- A symbol for an operation of arithmetic. -/
def arithmetic (w : String) (op : Arithmetic) : Scanner (Expr → Expr → Expr) :=
  symbolFor w fun left right => (Operand.arithmetic op left right).toExpr

/-- A symbol for a comparison. -/
def comparison (w : String) (op : Logical) : Scanner (Expr → Expr → Expr) :=
  symbolFor w fun left right => (Operand.logical op left right).toExpr

/-- A word for a connective. -/
def connective (w : String) (op : Logical) : Scanner (Expr → Expr → Expr) := do
  operatorWord w
  return fun left right => (Operand.logical op left right).toExpr

def productOp : Scanner (Expr → Expr → Expr) :=
  arithmetic "*" .mul <|> arithmetic "/" .div <|> arithmetic "%" .rem

def sumOp : Scanner (Expr → Expr → Expr) :=
  arithmetic "+" .add <|> arithmetic "-" .sub

def comparisonOp : Scanner (Expr → Expr → Expr) :=
  comparison "<=" .atMost <|> comparison ">=" .atLeast <|> comparison ">" .greater <|>
    comparison "<" .less <|> comparison "==" .equal <|> comparison "!=" .notEqual

/-- Sums and products that start with an operand that has been read. -/
def sumFrom (first : Expr) (operand : Scanner Expr) : Scanner Expr := do
  let product ← chainFrom first operand productOp
  chainFrom product (chain operand productOp) sumOp

/-- Sums and products of operands. -/
def sumOf (operand : Scanner Expr) : Scanner Expr := do
  let first ← operand
  sumFrom first operand

/-- The parts of a concatenation together. Texts alone are one text. -/
def joinParts (parts : List Operand) : Operand :=
  let texts := parts.filterMap fun
    | .text s => some s
    | _ => none
  if texts.length = parts.length then .text (String.join texts) else .concat parts

section

variable (inner : Part → Scanner Expr)

/-- The value of an argument. -/
def argument : Scanner Expr := inner .logic <|> inner .array

/-- A named argument. -/
def namedArgument : Scanner (String × Expr) := do
  let name ← ident
  symbol "="
  let value ← argument inner
  return (name, value)

/-- Named arguments between parentheses. Of two with one name the later one counts. -/
def arguments : Scanner (List (String × Expr)) := do
  symbol "("
  let args ← maybe (trailingList (namedArgument inner))
  symbol ")"
  return Entries.ofList (args.getD [])

/-- A call with parentheses. -/
def call : Scanner Call := do
  let name ← ident
  let args ← arguments inner
  return .mk name args

/-- A call, or a name alone for a call without arguments. -/
def callOrName : Scanner Call :=
  call inner <|> do
    let name ← ident
    return .mk name []

/-- The filters behind an operand. -/
def filters : Scanner (List Call) :=
  many (do symbol "|"; callOrName inner)

/-- An operand with the filters behind it. -/
def filtered (operand : Scanner Expr) : Scanner Expr := do
  let e ← operand
  let calls ← filters inner
  return e.withFilters calls

/-- An array of values. -/
def array : Scanner Expr := do
  symbol "["
  let items ← maybe (trailingList (inner .value))
  symbol "]"
  return (Operand.array (items.getD [])).toExpr

/-- The call of a routine, with the name of the place where it is defined. -/
def routineCall : Scanner Operand := do
  let space ← ident
  symbol "::"
  let name ← ident
  let args ← arguments inner
  return .routineCall space name args

/-- The name of a test, with its arguments. -/
def testName : Scanner (String × List Expr) := do
  let name ← ident
  let args ← maybe (do
    symbol "("
    let args ← commaList (argument inner)
    symbol ")"
    return args)
  return (name, args.getD [])

/-- A test of a path. -/
def test (depth : Nat) : Scanner Operand := do
  let subject ← path depth
  symbol "is"
  (do
    symbol "not"
    let (name, args) ← testName inner
    return .test true subject name args) <|> do
    let (name, args) ← testName inner
    return .test false subject name args

/-- A single operand of arithmetic. -/
def atom (depth : Nat) : Scanner Operand :=
  .bool <$> truth <|> test inner depth <|> routineCall inner <|> .call <$> call inner <|>
    .name <$> path depth <|> .real <$> real <|> .int <$> int

/-- An operand of arithmetic without filters, or arithmetic between parentheses. -/
def factor (depth : Nat) : Scanner Expr :=
  (do
    symbol "("
    let e ← inner .sum
    symbol ")"
    return e) <|> do
    let operand ← atom inner depth
    return operand.toExpr

/-- Arithmetic with filters behind it. -/
def filteredSum (depth : Nat) : Scanner Expr :=
  filtered inner (sumOf (factor inner depth))

/-- An operand of a concatenation. -/
def part (depth : Nat) : Scanner Operand :=
  .call <$> call inner <|> .real <$> real <|> .int <$> int <|> .text <$> text <|>
    .name <$> path depth

/-- At least two operands that are concatenated. -/
def concatenation (depth : Nat) : Scanner Expr := do
  let first ← part inner depth
  let more ← many1 (do symbol "~"; part inner depth)
  return (joinParts (first :: more)).toExpr

/-- A text or concatenation with filters behind it. -/
def textual (depth : Nat) : Scanner Expr :=
  filtered inner (concatenation inner depth <|> do
    let s ← text
    return (Operand.text s).toExpr)

/-- The membership of an operand that has been read. -/
def membership (depth : Nat) (left : Expr) : Scanner Expr := do
  let negated ← maybe (operatorWord "not")
  symbol "in"
  let right ← textual inner depth <|> inner .array <|> do
    let name ← path depth
    return (Operand.name name).toExpr
  return (Operand.membership negated.isSome left right).toExpr

/-- The comparison of an operand that has been read, or that operand alone. -/
def comparisonFrom (depth : Nat) (left : Expr) : Scanner Expr := do
  let compared ← maybe (do
    let combine ← comparisonOp
    let right ← textual inner depth <|> sumOf (filteredSum inner depth)
    return combine left right)
  return compared.getD left

/-- A value, comparison or membership. -/
def relation (depth : Nat) : Scanner Expr :=
  (do
    let left ← textual inner depth
    membership inner depth left <|> comparisonFrom inner depth left) <|> do
    let left ← filteredSum inner depth
    membership inner depth left <|> do
      let sum ← sumFrom left (filteredSum inner depth)
      comparisonFrom inner depth sum

/-- A relation, perhaps negated, or connectives between parentheses. What stands between parentheses
cannot be negated, and loses a negation that it starts with when it is a single operand. -/
def value (depth : Nat) : Scanner Expr :=
  (do
    let negated ← maybe (operatorWord "not")
    let e ← relation inner depth
    return e.withNegation negated.isSome) <|> do
    symbol "("
    let e ← inner .logic
    symbol ")"
    return e.withNegation false

/-- Values that are joined by `or` and `and`, of which `and` binds more tightly. -/
def logic (depth : Nat) : Scanner Expr :=
  chain (chain (value inner depth) (connective "and" .and)) (connective "or" .or)

/-- What is read for a part. -/
def Part.rule (depth : Nat) : Part → Scanner Expr
  | .logic => DocModel.Template.logic inner depth
  | .value => DocModel.Template.value inner depth
  | .sum => sumOf (factor inner depth)
  | .array => filtered inner (DocModel.Template.array inner)

end

/-- Reads a part in which other parts are nested less than `depth` deep. -/
def Part.read : Nat → Part → Scanner Expr
  | 0, _ => fun _ => none
  | depth + 1, part => fun s => part.rule (read depth) depth s

end DocModel.Template
