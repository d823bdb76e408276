/-
Why a text is refused. A `ParseError` is a cause with its place; the wording of every cause is in `Cause.message`.
-/
import DiagramText.Dialect
import DiagramText.Number.Integer

namespace DiagramText

/-- what is wrong at a place of a text -/
inductive Cause where
  -- any dialect
  | invalidStatement (dialect : Dialect) (statement : Text)
  | textAfterHeader (dialect : Dialect)
  | unknownDirection (token : Text)
  | expectedNumber (token : Text)
  | unterminatedField
  | afterQuotedField (c : Char)
  -- flowcharts
  | noSubgraphId (title : Text)
  | expectedLink (found : Text)
  | expectedNode
  | endOutsideSubgraph
  | unclosedSubgraph (id : Text)
  -- sequence diagrams
  | notAnActorInBox
  | boxInsideBlock
  | singleParticipantNote (position : Text)
  | dividerOutsideBlock (keyword : Text)
  | unexpectedEnd
  | unclosedBox
  | unclosedBlock (keyword : Text)
  -- class diagrams
  | nestedNamespace
  | unexpectedBrace
  | unclosedClassBody (id : Text)
  | unclosedNamespace (name : Text)
  -- state diagrams
  | braceOutsideComposite
  | unclosedNote
  | unclosedComposite (id : Text)
  -- entity diagrams
  | invalidAttribute (text : Text)
  | unknownKey (key : Text)
  | unknownCardinality (symbol : Text)
  | unclosedEntity (id : Text)
  -- mind maps
  | iconWithoutNode
  | classWithoutNode
  | secondRoot
  -- sankey diagrams
  | fieldCount (found : Nat)
  | emptyEndpoint
  -- timelines and journeys
  | eventWithoutPeriod
  | invalidTask (text : Text)
  -- charts with axes
  | unknownOrientation (word : Text)
  | unterminatedAxisTitle
  | categoriesOffXAxis
  | unterminatedCategories
  | invalidRange (text : Text)
  -- pie charts
  | unexpectedText (snippet : Text)
deriving DecidableEq, Repr

namespace Cause

/-- how messages call a statement of a dialect -/
def statementNoun : Dialect → Text
  | .classDiagram => "class diagram"
  | .state => "state diagram"
  | .er => "ER"
  | .quadrant => "quadrant chart"
  | d => d.tag

/-- how messages call the header of a dialect -/
def headerNoun : Dialect → Text
  | .state => "stateDiagram"
  | d => d.tag

/-- the wording of a cause -/
def message : Cause → Text
  | invalidStatement d s => "Invalid " ++ statementNoun d ++ " statement: " ++ literal s
  | textAfterHeader d => "Unexpected text after " ++ headerNoun d ++ " header"
  | unknownDirection t => "Unknown direction " ++ literal t
  | expectedNumber t => "Expected a number, got " ++ literal t
  | unterminatedField => "Unterminated quoted field"
  | afterQuotedField c => "Unexpected " ++ literal [c] ++ " after quoted field"
  | noSubgraphId t => "Cannot derive a subgraph id from " ++ literal t
  | expectedLink t => "Expected a link, got " ++ literal t
  | expectedNode => "Expected a node after the link"
  | endOutsideSubgraph => "Unexpected 'end' outside a subgraph"
  | unclosedSubgraph id => "Unclosed subgraph '" ++ id ++ "'"
  | notAnActorInBox => "Only participant and actor declarations may appear in a box"
  | boxInsideBlock => "A box cannot be opened inside a block"
  | singleParticipantNote p => "'" ++ p ++ "' notes take a single participant"
  | dividerOutsideBlock k => "'" ++ k ++ "' outside a matching block"
  | unexpectedEnd => "Unexpected 'end'"
  | unclosedBox => "Unclosed box, expected 'end'"
  | unclosedBlock k => "Unclosed '" ++ k ++ "' block"
  | nestedNamespace => "Nested namespaces are not supported"
  | unexpectedBrace => "Unexpected '\x7d'"
  | unclosedClassBody id => "Unclosed class body '" ++ id ++ "'"
  | unclosedNamespace n => "Unclosed namespace '" ++ n ++ "'"
  | braceOutsideComposite => "Unexpected '\x7d' outside a composite state"
  | unclosedNote => "Unclosed note, expected 'end note'"
  | unclosedComposite id => "Unclosed composite state '" ++ id ++ "'"
  | invalidAttribute t => "Invalid attribute: " ++ literal t
  | unknownKey k => "Unknown attribute key " ++ literal k
  | unknownCardinality s => "Unknown cardinality " ++ literal s
  | unclosedEntity id => "Unclosed entity block '" ++ id ++ "'"
  | iconWithoutNode => "Icon without a preceding node"
  | classWithoutNode => "Class without a preceding node"
  | secondRoot => "A mindmap can only have one root node"
  | fieldCount n => "Expected 3 fields (source,target,value), got " ++ Text.ofNat n
  | emptyEndpoint => "Sankey source and target must not be empty"
  | eventWithoutPeriod => "Event continuation without a time period"
  | invalidTask t => "Invalid journey task: " ++ literal t
  | unknownOrientation w => "Unknown chart orientation " ++ literal w
  | unterminatedAxisTitle => "Unterminated axis title"
  | categoriesOffXAxis => "Only the x-axis takes categories"
  | unterminatedCategories => "Unterminated category list"
  | invalidRange t => "Invalid axis range: " ++ literal t
  | unexpectedText s => "Unexpected " ++ literal s

end Cause

/-- a cause with the line and the column, both counted from one, where it shows -/
structure ParseError where
  line : Nat
  column : Int
  cause : Cause
deriving DecidableEq, Repr

/-- place and cause in words -/
def ParseError.message (e : ParseError) : Text :=
  "line " ++ Text.ofNat e.line ++ ", column " ++ Text.ofInt e.column ++ ": " ++ e.cause.message

/-- why a text is not read as a diagram -/
inductive ReadError where
  | malformed (e : ParseError)
  | integer (e : IntegerError)
  /-- no dialect was named, and the first line shows none -/
  | undetected (text : Text)
  /-- a dialect was named that does not exist -/
  | unknownDialect (tag : Text)
  /-- the dialect has no synchronous reader -/
  | asynchronous (dialect : Dialect)
deriving DecidableEq, Repr

/-- the wording of the error -/
def ReadError.message : ReadError → Text
  | malformed e => e.message
  | integer e => e.message
  | undetected text =>
    "Unable to detect diagram type from " ++ literal (((Text.trim text).takeWhile (· ≠ '\n')).take 40)
  | unknownDialect tag => "Unknown dialect " ++ literal tag
  | asynchronous d => "'" ++ d.tag ++ "' diagrams use an asynchronous grammar engine; call parse_async()"

end DiagramText
