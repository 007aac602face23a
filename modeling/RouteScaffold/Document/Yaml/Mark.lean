/-!
# Places and faults of a YAML text

A `Mark` is a place in a text. A text that is not YAML has a first `Fault`: what was found wrong
(`Problem`), where, and, for most problems, what was being read (`Activity`) and since where.
-/

namespace RouteScaffold.Document.Yaml

/-! ## 1. Places -/

/-- A place in a text: the characters before it, its line and its column, all from zero. -/
structure Mark where
  index : Nat
  line : Nat
  column : Nat
  deriving DecidableEq, Repr, Inhabited

/-- The first place. -/
def Mark.origin : Mark := ⟨0, 0, 0⟩

/-- Line and column from one; the origin shows no place. -/
def Mark.suffix (m : Mark) : String :=
  if m.line = 0 ∧ m.column = 0 then "" else s!" at line {m.line + 1} column {m.column + 1}"

/-! ## 2. Faults -/

/-- What is wrong with a text. -/
inductive Problem where
  | controlCharacter
  | blockEntryHere
  | mappingKeyHere
  | mappingValueHere
  | noColon
  | noTokenStart
  | unknownDirective
  | noDirectiveName
  | badDirectiveName
  | noCommentOrBreak
  | noDigitOrPoint
  | longVersion
  | noVersion
  | noWhitespace
  | noWhitespaceOrBreak
  | noNameCharacter
  | noTagEnd
  | noTagMark
  | noTagUri
  | noUriOctet
  | badLeadingOctet
  | badTrailingOctet
  | zeroIndentation
  | tabForIndentation
  | tabInIndentation
  | documentMark
  | endOfStream
  | unknownEscape
  | noHexDigit
  | badCodePoint
  | unexpectedColon
  | noDocumentStart
  | undefinedHandle
  | noContent
  | noDash
  | noKey
  | noListSeparator
  | noMapSeparator
  | repeatedVersion
  | otherVersion
  | repeatedTagRule
  deriving DecidableEq, Repr

/-- The wording of a problem. -/
def Problem.message : Problem → String
  | .controlCharacter => "control characters are not allowed"
  | .blockEntryHere => "block sequence entries are not allowed in this context"
  | .mappingKeyHere => "mapping keys are not allowed in this context"
  | .mappingValueHere => "mapping values are not allowed in this context"
  | .noColon => "could not find expected ':'"
  | .noTokenStart => "found character that cannot start any token"
  | .unknownDirective => "found unknown directive name"
  | .noDirectiveName => "could not find expected directive name"
  | .badDirectiveName => "found unexpected non-alphabetical character"
  | .noCommentOrBreak => "did not find expected comment or line break"
  | .noDigitOrPoint => "did not find expected digit or '.' character"
  | .longVersion => "found extremely long version number"
  | .noVersion => "did not find expected version number"
  | .noWhitespace => "did not find expected whitespace"
  | .noWhitespaceOrBreak => "did not find expected whitespace or line break"
  | .noNameCharacter => "did not find expected alphabetic or numeric character"
  | .noTagEnd => "did not find the expected '>'"
  | .noTagMark => "did not find expected '!'"
  | .noTagUri => "did not find expected tag URI"
  | .noUriOctet => "did not find URI escaped octet"
  | .badLeadingOctet => "found an incorrect leading UTF-8 octet"
  | .badTrailingOctet => "found an incorrect trailing UTF-8 octet"
  | .zeroIndentation => "found an indentation indicator equal to 0"
  | .tabForIndentation => "found a tab character where an indentation space is expected"
  | .tabInIndentation => "found a tab character that violates indentation"
  | .documentMark => "found unexpected document indicator"
  | .endOfStream => "found unexpected end of stream"
  | .unknownEscape => "found unknown escape character"
  | .noHexDigit => "did not find expected hexdecimal number"
  | .badCodePoint => "found invalid Unicode character escape code"
  | .unexpectedColon => "found unexpected ':'"
  | .noDocumentStart => "did not find expected <document start>"
  | .undefinedHandle => "found undefined tag handle"
  | .noContent => "did not find expected node content"
  | .noDash => "did not find expected '-' indicator"
  | .noKey => "did not find expected key"
  | .noListSeparator => "did not find expected ',' or ']'"
  | .noMapSeparator => "did not find expected ',' or '\x7d'"
  | .repeatedVersion => "found duplicate %YAML directive"
  | .otherVersion => "found incompatible YAML document"
  | .repeatedTagRule => "found duplicate %TAG directive"

/-- What was being read when a problem was found. -/
inductive Activity where
  | nextToken
  | simpleKey
  | directive
  | versionDirective
  | tagDirective
  | tagDirectiveText
  | anchor
  | alias
  | tag
  | tagText
  | blockScalar
  | quotedScalar
  | quotedEscape
  | plainScalar
  | blockNode
  | flowNode
  | node
  | blockList
  | blockMap
  | flowList
  | flowMap
  deriving DecidableEq, Repr

/-- The wording of an activity. -/
def Activity.message : Activity → String
  | .nextToken => "while scanning for the next token"
  | .simpleKey => "while scanning a simple key"
  | .directive => "while scanning a directive"
  | .versionDirective => "while scanning a %YAML directive"
  | .tagDirective => "while scanning a %TAG directive"
  | .tagDirectiveText => "while parsing a %TAG directive"
  | .anchor => "while scanning an anchor"
  | .alias => "while scanning an alias"
  | .tag => "while scanning a tag"
  | .tagText => "while parsing a tag"
  | .blockScalar => "while scanning a block scalar"
  | .quotedScalar => "while scanning a quoted scalar"
  | .quotedEscape => "while parsing a quoted scalar"
  | .plainScalar => "while scanning a plain scalar"
  | .blockNode => "while parsing a block node"
  | .flowNode => "while parsing a flow node"
  | .node => "while parsing a node"
  | .blockList => "while parsing a block collection"
  | .blockMap => "while parsing a block mapping"
  | .flowList => "while parsing a flow sequence"
  | .flowMap => "while parsing a flow mapping"

/-- Why a text is not YAML. -/
structure Fault where
  problem : Problem
  /-- Where the problem is. -/
  mark : Mark
  /-- The bytes before the problem, for a problem of the characters themselves. -/
  offset : Nat
  /-- What was being read, and since where. -/
  context : Option (Activity × Mark)
  deriving DecidableEq, Repr

/-- A problem without context. -/
def Fault.plain (problem : Problem) (mark : Mark) : Fault := ⟨problem, mark, 0, none⟩

/-- A problem within an activity begun at `since`. -/
def Fault.during (activity : Activity) (since : Mark) (problem : Problem) (mark : Mark) : Fault :=
  ⟨problem, mark, 0, some (activity, since)⟩

/-- The fault as a sentence: the problem and its place, then the activity and, if it began
elsewhere, its place. -/
def Fault.message (f : Fault) : String :=
  let place :=
    if f.mark.line = 0 ∧ f.mark.column = 0 then
      if f.offset = 0 then "" else s!" at position {f.offset}"
    else f.mark.suffix
  let context :=
    match f.context with
    | none => ""
    | some (activity, since) =>
      let apart := since.line ≠ f.mark.line ∨ since.column ≠ f.mark.column
      ", " ++ activity.message ++ (if apart then since.suffix else "")
  f.problem.message ++ place ++ context

end RouteScaffold.Document.Yaml
