import Chatt.Model.Tokenizer

/-!
# What a token stream says about its source

Every event opens a scope, closes one or stands alone, and every byte of the source lies in one
part: a leaf's text, a delimiter, the quote markers of a line, a line's terminator or a blank
line. The leaves and the delimiters are the ranges of the tokens, in the order of the tokens.
-/

namespace Chatt.MessageFormat

open Lib

/-! ## Scopes -/

inductive Scope where
  | paragraph
  | header
  | list
  | listItem
  | codeBlock
  | blockQuote
  | bold
  | italic
deriving DecidableEq, Repr

def TokenKind.mark : TokenKind → Mark Scope
  | .paragraphStart => .opens .paragraph
  | .paragraphEnd => .closes .paragraph
  | .headerStart => .opens .header
  | .headerEnd => .closes .header
  | .unorderedListStart => .opens .list
  | .orderedListStart => .opens .list
  | .listEnd => .closes .list
  | .listItemStart _ => .opens .listItem
  | .listItemEnd => .closes .listItem
  | .codeBlockStart _ => .opens .codeBlock
  | .codeBlockEnd => .closes .codeBlock
  | .blockQuoteStart => .opens .blockQuote
  | .blockQuoteEnd => .closes .blockQuote
  | .boldStart => .opens .bold
  | .boldEnd => .closes .bold
  | .italicStart => .opens .italic
  | .italicEnd => .closes .italic
  | .codeBlockLine => .flat
  | .text => .flat
  | .inlineCode => .flat
  | .url => .flat
  | .messageRef => .flat
  | .hardBreak => .flat
  | .blankLine => .flat

def marks (tokens : List Token) : List (Mark Scope) := tokens.map fun token => token.kind.mark

/-! ## Parts of the source -/

inductive Role where
  | leaf
  | delimiter
  | quotePrefix
  | terminator
  | blankLine
deriving DecidableEq, Repr

structure Part where
  role : Role
  range : Span
deriving DecidableEq, Repr

def Part.fromToken (part : Part) : Bool := part.role = .leaf ∨ part.role = .delimiter

def TokenKind.isLeaf : TokenKind → Bool
  | .text | .url | .messageRef | .inlineCode | .codeBlockLine => true
  | _ => false

def leafRanges (tokens : List Token) : List Span :=
  (tokens.filter fun token => token.kind.isLeaf).map Token.range

/-- The parts a token stands for. The backticks next to inline code belong to it. -/
def Token.parts (token : Token) : List Part :=
  match token.kind with
  | .text | .url | .messageRef | .codeBlockLine => [⟨.leaf, token.range⟩]
  | .inlineCode =>
    [⟨.delimiter, ⟨token.range.start - 1, token.range.start⟩⟩, ⟨.leaf, token.range⟩,
      ⟨.delimiter, ⟨token.range.stop, token.range.stop + 1⟩⟩]
  | .headerStart | .listItemStart _ | .codeBlockStart _ | .codeBlockEnd | .boldStart | .boldEnd
  | .italicStart | .italicEnd => [⟨.delimiter, token.range⟩]
  | _ => []

variable (bytes : Source)

/-- A line starts at `i`. -/
def LineStart (i : ℕ) : Prop := i = 0 ∨ bytes[i - 1]? = some (chr '\n')

/-- A run of quote markers, each `>` with at most one space after it. -/
inductive QuoteMarkers : Source → Prop
  | nil : QuoteMarkers []
  | bare {rest : Source} : QuoteMarkers rest → QuoteMarkers (chr '>' :: rest)
  | spaced {rest : Source} : QuoteMarkers rest → QuoteMarkers (chr '>' :: chr ' ' :: rest)

/-- `[a, b)` ends a line. The last line of a source may end without a newline. -/
def Terminator (a b : ℕ) : Prop :=
  between bytes a b = ascii "\n" ∨ between bytes a b = ascii "\r\n" ∨
    (b = bytes.length ∧ (between bytes a b = [] ∨ between bytes a b = ascii "\r"))

/-- `[a, b)` is the content of a line, and blank. -/
def BlankContent (a b : ℕ) : Prop :=
  (∃ start ≤ a, LineStart bytes start ∧ QuoteMarkers (between bytes start a)) ∧
    (between bytes a b).all isBlankByte ∧ ∃ next, Terminator bytes b next

def Part.Proper (part : Part) : Prop :=
  match part.role with
  | .leaf => True
  | .delimiter => True
  | .quotePrefix =>
    LineStart bytes part.range.start ∧ QuoteMarkers (between bytes part.range.start part.range.stop)
  | .terminator => Terminator bytes part.range.start part.range.stop
  | .blankLine => BlankContent bytes part.range.start part.range.stop

/-! ## Tokens against the source -/

def Bounded (span : Span) : Prop := CharBoundary bytes span.start ∧ CharBoundary bytes span.stop

/-- All ranges of the token lie on character boundaries. -/
def Token.OnBoundaries (token : Token) : Prop :=
  Bounded bytes token.range ∧ match token.kind with
    | .listItemStart marker => Bounded bytes marker
    | .codeBlockStart lang => ∀ span ∈ lang, Bounded bytes span
    | _ => True

/-- The bytes a delimiter stands for are its marker. -/
def Token.ReadsMarker (token : Token) : Prop :=
  let read := between bytes token.range.start token.range.stop
  match token.kind with
  | .headerStart => read = ascii "# "
  | .listItemStart marker =>
    marker = token.range ∧ (read = ascii "- " ∨ read = ascii "* " ∨
      ∃ digits, digits ≠ [] ∧ digits.all isAsciiDigit ∧ read = digits ++ ascii ". ")
  | .codeBlockStart _ => ∃ lang, lang.all isAsciiAlphanumeric ∧ read = ascii "```" ++ lang
  | .codeBlockEnd => read = ascii "```"
  | .boldStart => read = ascii "**"
  | .boldEnd => read = ascii "**"
  | .italicStart => read = ascii "*"
  | .italicEnd => read = ascii "*"
  | .inlineCode =>
    0 < token.range.start ∧ bytes[token.range.start - 1]? = some (0x60 : Fin 256) ∧
      bytes[token.range.stop]? = some (0x60 : Fin 256)
  | _ => True

/-- The tokens lay out the source. -/
structure Layout (bytes : Source) (tokens : List Token) : Prop where
  nested : WellNested (marks tokens)
  boundaries : ∀ token ∈ tokens, token.OnBoundaries bytes
  markers : ∀ token ∈ tokens, token.ReadsMarker bytes
  /-- every byte lies in exactly one part; the parts that are leaves or delimiters are those of
  the tokens, in order -/
  parts : ∃ parts : List Part, (∀ i < bytes.length, ∃! part, part ∈ parts ∧ part.range.Holds i) ∧
    Tiles Part.range 0 bytes.length parts ∧
    parts.filter Part.fromToken = tokens.flatMap Token.parts ∧ ∀ part ∈ parts, part.Proper bytes
  leaves : (leafRanges tokens).Pairwise Span.Before

end Chatt.MessageFormat
