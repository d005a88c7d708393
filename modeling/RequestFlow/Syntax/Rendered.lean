/-
From syntax tree to text. A node is written from the renderings of its
children, together with the literals and names it mentions, in the order in
which it reads them. The text is a program slice: lossy, but determined by the
tree alone.
-/
import RequestFlow.Syntax.Children
import RequestFlow.Syntax.Identifiers

namespace RequestFlow

/-- The name under which an occurrence of `this` is recorded. -/
def thisIdentifier : String := "ThisExpression"

/-- A value in double quotes, with quotes and backslashes escaped. -/
def quote (value : String) : String :=
  String.ofList ('"' :: escape value.toList ++ ['"'])
where
  escape : List Char → List Char
    | [] => []
    | c :: rest => if c = '"' ∨ c = '\\' then '\\' :: c :: escape rest else c :: escape rest

/-- Code with the literals and names it mentions. -/
structure Rendered where
  code : String := ""
  literals : List String := []
  identifiers : IdentifierMap := {}
  deriving DecidableEq, Repr, Inhabited

/-- What has been mentioned so far, while a node is being written. -/
structure Mentions where
  literals : List String := []
  identifiers : IdentifierMap := {}

/-- How children are rendered; a rendering may fail. -/
abbrev Renderer := Node → Except GraphFault Rendered

abbrev Writing := ReaderT Renderer (StateT Mentions (Except GraphFault))

namespace Writing

/-- Writes a child and records what it mentions. -/
def part (child : Node) : Writing String := do
  let rendered ← (← read) child
  modify fun m => ⟨m.literals ++ rendered.literals, m.identifiers ++ rendered.identifiers⟩
  return rendered.code

/-- Writes a child that may be absent. -/
def part? : Option Node → Writing String
  | some child => part child
  | none => return ""

def parts : List Node → Writing (List String)
  | [] => return []
  | child :: rest => return (← part child) :: (← parts rest)

def joined (separator : String) (children : List Node) : Writing String :=
  return separator.intercalate (← parts children)

def mentionName (name : String) (origin : NodeId) : Writing Unit :=
  modify fun m => { m with identifiers := m.identifiers.insert name origin }

def mentionLiteral (value : String) : Writing Unit :=
  modify fun m => { m with literals := m.literals ++ [value] }

end Writing

namespace Rendered

open Writing

def braces (inner : String) : String := "\x7b" ++ inner ++ "\x7d"

/-- A block as it is; anything else becomes the only statement of one. -/
def braced (code : String) : String :=
  if Text.startsWith "\x7b" code then code
  else if code.isEmpty then braces ""
  else braces (" " ++ code ++ "; ")

/-- The text of a property name that is not computed; it mentions nothing. -/
def propertyName (key : Node) : String :=
  match key.type with
  | .literal => quote key.value
  | _ => key.code

/-- Regular expressions are exported with an empty object as value and their text as raw. -/
def isRegex (node : Node) : Bool :=
  node.value == braces "" && !node.raw.isEmpty && node.raw != braces ""

def literal (node : Node) : Writing String :=
  if isRegex node then do
    mentionLiteral node.raw
    return node.raw
  else do
    mentionLiteral node.value
    return quote node.value

def member (node : Node) (kids : Children Node) : Writing String := do
  let object ← part? (kids.one? "object" (some 0))
  match kids.one? "property" (some 1) with
  | none => return object
  | some property =>
    if node.computed || property.type == .literal then
      return object ++ "[" ++ (← part property) ++ "]"
    else if property.type == .identifier then
      return object ++ "." ++ property.code
    else
      return object ++ "." ++ (← part property)

/-- The body of a function: the child in that role, or without relation types the last one. -/
def functionBody? (kids : Children Node) : Option Node :=
  if kids.isTyped then kids.one? "body" none else kids.positional.getLast?

/-- A function; the short form leaves its body out. -/
def function (short : Bool) (node : Node) (kids : Children Node) : Writing String := do
  let name := match kids.one? "id" none with
    | some id => id.code
    | none => ""
  let params ← joined ", " (kids.many "params" (some 0))
  let arrow := node.type == .arrowFunctionExpression
  let head :=
    if arrow then "(" ++ params ++ ") => "
    else if name.isEmpty then "function(" ++ params ++ ") "
    else "function " ++ name ++ "(" ++ params ++ ") "
  if short then
    return head ++ braces "..."
  else
    let body ← match functionBody? kids with
      | some body => part body
      | none => pure (braces "")
    return head ++ (if arrow then body else braced body)

/-- Writes a node from its kind, its own fields and its children. -/
def write (short : Bool) (node : Node) (kids : Except GraphFault (Children Node)) :
    Writing String := do
  match node.type with
  | .literal => literal node
  | .identifier =>
    mentionName node.code node.id
    return node.code
  | .thisExpression =>
    mentionName thisIdentifier node.id
    return "this"
  | .memberExpression => member node (← kids)
  | .assignmentExpression | .binaryExpression | .logicalExpression =>
    let kids ← kids
    let left ← part? (kids.one? "left" (some 0))
    let right ← part? (kids.one? "right" (some 1))
    let op := if node.code.isEmpty then "=" else node.code
    return left ++ " " ++ op ++ " " ++ right
  | .variableDeclaration =>
    let kids ← kids
    let declarators ← joined ", " (kids.many "declarations" (some 0))
    let kind := if node.kind.isEmpty then "var" else node.kind
    return kind ++ " " ++ declarators
  | .variableDeclarator =>
    let kids ← kids
    let id ← part? (kids.one? "id" (some 0))
    match kids.one? "init" (some 1) with
    | some init => return id ++ " = " ++ (← part init)
    | none => return id
  | .expressionStatement => part? ((← kids).one? "expression" (some 0))
  | .callExpression =>
    let kids ← kids
    let callee ← part? (kids.one? "callee" (some 0))
    let args ← joined ", " (kids.many "arguments" (some 1))
    return callee ++ "(" ++ args ++ ")"
  | .newExpression =>
    let kids ← kids
    let callee ← part? (kids.one? "callee" (some 0))
    let args ← joined ", " (kids.many "arguments" (some 1))
    return "new " ++ callee ++ "(" ++ args ++ ")"
  | .functionDeclaration | .functionExpression | .arrowFunctionExpression =>
    function short node (← kids)
  | .blockStatement =>
    match (← kids).many "body" (some 0) with
    | [] => return braces ""
    | statements => return braces (" " ++ (← joined "; " statements) ++ "; ")
  | .program =>
    match (← kids).many "body" (some 0) with
    | [] => return braces ""
    | statements => joined "; " statements
  | .ifStatement =>
    let kids ← kids
    let test ← part? (kids.one? "test" (some 0))
    let consequent := braced (← part? (kids.one? "consequent" (some 1)))
    let head := "if (" ++ test ++ ") " ++ consequent
    match kids.one? "alternate" (some 2) with
    | some alternate => return head ++ " else " ++ braced (← part alternate)
    | none => return head
  | .conditionalExpression =>
    let kids ← kids
    let test ← part? (kids.one? "test" (some 0))
    let consequent ← part? (kids.one? "consequent" (some 1))
    let alternate ← part? (kids.one? "alternate" (some 2))
    return "(" ++ test ++ ") ? " ++ consequent ++ " : " ++ alternate
  | .tryStatement =>
    let kids ← kids
    let block ← part? (kids.one? "block" (some 0))
    let handler ← match kids.one? "handler" (some 1) with
      | some handler => pure (" " ++ (← part handler))
      | none => pure ""
    let finalizer ← match kids.one? "finalizer" (some 2) with
      | some finalizer => pure (" finally " ++ braced (← part finalizer))
      | none => pure ""
    return "try " ++ braced block ++ handler ++ finalizer
  | .catchClause =>
    let kids ← kids
    let param ← part? (kids.one? "param" (some 0))
    let body ← part? (kids.one? "body" (some 1))
    return "catch(" ++ param ++ ") " ++ braced body
  | .objectExpression => return braces (← joined ", " ((← kids).many "properties" (some 0)))
  | .property =>
    let kids ← kids
    let key ← match kids.one? "key" (some 0) with
      | some key =>
        if node.computed then pure ("[" ++ (← part key) ++ "]") else pure (propertyName key)
      | none => pure ""
    let value ← part? (kids.one? "value" (some 1))
    return key ++ ": " ++ value
  | .arrayExpression => return "[" ++ (← joined ", " ((← kids).many "elements" (some 0))) ++ "]"
  | .updateExpression =>
    let argument ← part? ((← kids).one? "argument" (some 0))
    return if node.kind == "prefix" then node.code ++ argument else argument ++ node.code
  | .unaryExpression =>
    let argument ← part? ((← kids).one? "argument" (some 0))
    return if node.code.toList.all Char.isAlpha then node.code ++ " " ++ argument
      else node.code ++ argument
  | .sequenceExpression => joined ", " ((← kids).many "expressions" (some 0))
  | .returnStatement =>
    match (← kids).one? "argument" (some 0) with
    | some argument => return "return " ++ (← part argument)
    | none => return "return"
  | .throwStatement =>
    match (← kids).one? "argument" (some 0) with
    | some argument => return "throw " ++ (← part argument)
    | none => return "throw"
  | .forStatement =>
    let kids ← kids
    let init ← part? (kids.one? "init" (some 0))
    let test ← part? (kids.one? "test" (some 1))
    let update ← part? (kids.one? "update" (some 2))
    let body ← part? (kids.one? "body" (some 3))
    return "for (" ++ init ++ "; " ++ test ++ "; " ++ update ++ ") " ++ braced body
  | .forInStatement =>
    let kids ← kids
    let left ← part? (kids.one? "left" (some 0))
    let right ← part? (kids.one? "right" (some 1))
    let body ← part? (kids.one? "body" (some 2))
    return "for (" ++ left ++ " in " ++ right ++ ") " ++ braced body
  | .whileStatement =>
    let kids ← kids
    let test ← part? (kids.one? "test" (some 0))
    let body ← part? (kids.one? "body" (some 1))
    return "while (" ++ test ++ ") " ++ braced body
  | .doWhileStatement =>
    let kids ← kids
    let body ← part? (kids.one? "body" (some 0))
    let test ← part? (kids.one? "test" (some 1))
    return "do " ++ braced body ++ " while (" ++ test ++ ")"
  | .switchStatement =>
    let kids ← kids
    let discriminant ← part? (kids.one? "discriminant" (some 0))
    let cases ← joined " " (kids.many "cases" (some 1))
    return "switch (" ++ discriminant ++ ") " ++ braces (" " ++ cases ++ " ")
  | .switchCase =>
    -- The statements are read before the test.
    let kids ← kids
    let body ← joined "; " (kids.many "consequent" (some 1))
    match kids.one? "test" none with
    | some test => return "case " ++ (← part test) ++ ": " ++ body
    | none => return "default: " ++ body
  | .breakStatement => return "break"
  | .continueStatement => return "continue"
  | .emptyStatement => return ""
  | .other _ =>
    match (← kids).all with
    | [] => return node.code
    | parts => joined "; " parts

/-- The rendering of a node, given how its children are rendered. -/
def ofChildren (short : Bool) (render : Renderer) (node : Node)
    (kids : Except GraphFault (Children Node)) : Except GraphFault Rendered := do
  let (code, mentions) ← ((write short node kids).run render).run {}
  .ok ⟨code, mentions.literals, mentions.identifiers⟩

end Rendered

namespace Service

/-- Renders at most `fuel` levels of the syntax tree. -/
def renderUpTo (g : Service) (short : Bool) : (fuel : Nat) → Node → Except GraphFault Rendered
  | 0, _ => .ok {}
  | fuel + 1, node =>
    Rendered.ofChildren short (g.renderUpTo short fuel) node (g.astChildren node.id)

/-- Renders a node. The nodes on a path down a tree are distinct, so their number bounds it. -/
def renderNode (g : Service) (node : Node) (short : Bool := false) : Except GraphFault Rendered :=
  g.renderUpTo short (g.store.nodeCount + 1) node

def render (g : Service) (id : NodeId) (short : Bool := false) : Except GraphFault Rendered := do
  g.renderNode (← g.node id) short

end Service

end RequestFlow
