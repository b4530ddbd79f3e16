import Chatt.Lib.Spans
import Chatt.Lib.Utf8
import Chatt.Model.Identity

/-!
# The message tokenizer

A message body is text with a small markup: quotes, fenced code, headers, lists, inline code,
emphasis, links and references to messages. `tokenize` emits balanced block and inline events
with ranges of the source's bytes (crates/message-format/src/tokenizer.rs and link.rs).

Positions are byte offsets. The functions that push to `out` either thread it in the state of
the block loop, or return what they push. A scan `while i < n { … i += 1 }` that returns at its
first hit is a search of the positions in order.
-/

namespace Chatt.MessageFormat

open Lib

abbrev Source := List (Fin 256)

/-- An ASCII byte literal. -/
def chr (c : Char) : Fin 256 := Fin.ofNat 256 c.toNat

/-! ## Tokens (tokenizer.rs:9-123) -/

inductive TokenKind where
  | paragraphStart
  | paragraphEnd
  | headerStart
  | headerEnd
  | unorderedListStart
  | orderedListStart
  | listEnd
  | listItemStart (marker : Span)
  | listItemEnd
  | codeBlockStart (lang : Option Span)
  | codeBlockLine
  | codeBlockEnd
  | blockQuoteStart
  | blockQuoteEnd
  | text
  | boldStart
  | boldEnd
  | italicStart
  | italicEnd
  | inlineCode
  | url
  | messageRef
  | hardBreak
  | blankLine
deriving DecidableEq, Repr

structure Token where
  kind : TokenKind
  range : Span
deriving DecidableEq, Repr

inductive ListKind where
  | unordered
  | ordered
deriving DecidableEq, Repr

inductive Fence where
  | bare (start : ℕ) (standalone : Bool)
  | withLanguage (start : ℕ) (lang : Span)
deriving DecidableEq, Repr

def Fence.start : Fence → ℕ
  | .bare start _ => start
  | .withLanguage start _ => start

def Fence.isStandaloneBare : Fence → Bool
  | .bare _ standalone => standalone
  | .withLanguage _ _ => false

def Fence.lang : Fence → Option Span
  | .bare _ _ => none
  | .withLanguage _ lang => some lang

inductive LineKind where
  | blank
  | fence (fence : Fence)
  | header
  | listItem (kind : ListKind) (markerLen : ℕ)
  | text
deriving DecidableEq, Repr

/-- A physical line. `prefixEnds` is the line's part of the shared table: where each of its quote
markers ends. -/
structure SourceLine where
  start : ℕ
  contentEnd : ℕ
  next : ℕ
  prefixEnds : List ℕ
  kind : LineKind
  closingFence : Option ℕ
deriving DecidableEq, Repr

namespace SourceLine

def quoteDepth (line : SourceLine) : ℕ := line.prefixEnds.length

def contentAtDepth (line : SourceLine) (depth : ℕ) : ℕ :=
  if depth = 0 then line.start else line.prefixEnds.getD (depth - 1) 0

def contentStart (line : SourceLine) : ℕ := line.contentAtDepth line.quoteDepth

end SourceLine

inductive EmphasisKind where
  | bold
  | italic
  | both
deriving DecidableEq, Repr

/-- The number of `*` in the marker. -/
def EmphasisKind.len : EmphasisKind → ℕ
  | .italic => 1
  | .bold => 2
  | .both => 3

structure EmphasisSpan where
  kind : EmphasisKind
  opening : Span
  content : Span
  close : Span
deriving DecidableEq, Repr

/-! ## Links (link.rs) -/

def isAsciiAlphabetic (byte : Fin 256) : Bool :=
  (chr 'a' ≤ byte ∧ byte ≤ chr 'z') ∨ (chr 'A' ≤ byte ∧ byte ≤ chr 'Z')

def isAsciiDigit (byte : Fin 256) : Bool := chr '0' ≤ byte ∧ byte ≤ chr '9'

def isAsciiAlphanumeric (byte : Fin 256) : Bool := isAsciiAlphabetic byte || isAsciiDigit byte

def toAsciiLowercase (byte : Fin 256) : Fin 256 :=
  if chr 'A' ≤ byte ∧ byte ≤ chr 'Z' then Fin.ofNat 256 (byte.val + 32) else byte

def isAsciiWhitespace (byte : Fin 256) : Bool :=
  byte ∈ [chr ' ', chr '\t', chr '\n', (0x0C : Fin 256), chr '\r']

def isAsciiControl (byte : Fin 256) : Bool := byte.val < 0x20 ∨ byte.val = 0x7F

def schemes : List Source := [ascii "https://", ascii "http://"]

variable (bytes : Source)

/-- The length of the scheme that starts at `pos`. -/
def schemeAt (pos : ℕ) : Option ℕ :=
  (schemes.find? fun scheme =>
    pos + scheme.length ≤ bytes.length ∧
      (between bytes pos (pos + scheme.length)).map toAsciiLowercase = scheme).map List.length

def isUrlByte (byte : Fin 256) : Bool :=
  !isAsciiWhitespace byte && !isAsciiControl byte && byte ∉ [chr '<', chr '>', chr '\"',
    (0x60 : Fin 256)]

/-- Whether `last`, the last byte of `url`, is punctuation after the link. -/
def isTrailing (url : Source) (last : Fin 256) : Bool :=
  if last ∈ [chr '.', chr ',', chr ';', chr ':', chr '!', chr '?', (0x27 : Fin 256)] then true
  else if last = chr ')' then url.count (chr '(') < url.count (chr ')')
  else false

/-- Trims `[start, stop)` from its end. -/
def trimTrailing (bytes : Source) (start : ℕ) : ℕ → ℕ
  | 0 => 0
  | last + 1 =>
    if start < last + 1 ∧ isTrailing (between bytes start (last + 1)) (bytes.getD last 0) then
      trimTrailing bytes start last
    else last + 1

def u32 (n : ℕ) : ℕ := n % 2 ^ 32

/-- The rest of the loop of `find_urls`, from position `i`. -/
def findUrlsFrom (bytes : Source) : ℕ → ℕ → List Span
  | 0, _ => []
  | fuel + 1, i =>
    if i < bytes.length then
      match schemeAt bytes i with
      | none => findUrlsFrom bytes fuel (i + 1)
      | some schemeLen =>
        let stop := trimTrailing bytes i (skipWhile isUrlByte bytes (i + schemeLen) bytes.length)
        let rest := findUrlsFrom bytes fuel (max stop (i + schemeLen))
        -- a scheme with no host is not a link
        if i + schemeLen < stop then ⟨u32 i, u32 stop⟩ :: rest else rest
    else []

def findUrls (body : Source) : List Span := findUrlsFrom body body.length 0

/-! ## Inline tokens (tokenizer.rs:453-660, 716-735) -/

/-- `char::is_whitespace` fails at both ends of `source[a..b]`, which is not empty. The range
lies on character boundaries wherever the tokenizer asks. -/
def contentHasNonWsEdges (a b : ℕ) : Bool :=
  match fromUtf8 (between bytes a b) with
  | none => false
  | some [] => false
  | some (first :: rest) => !isWhiteSpace first && !isWhiteSpace (rest.getLastD first)

def isSingleBacktick (pos : ℕ) (bounds : Span) : Bool :=
  bytes[pos]? = some (0x60 : Fin 256) ∧
    (pos = bounds.start ∨ bytes[pos - 1]? ≠ some (0x60 : Fin 256)) ∧
    (pos + 1 ≥ bounds.stop ∨ bytes[pos + 1]? ≠ some (0x60 : Fin 256))

def exactMarker (pos : ℕ) (bounds : Span) (marker : Fin 256) (len : ℕ) : Bool :=
  pos + len ≤ bounds.stop ∧ (∀ byte ∈ between bytes pos (pos + len), byte = marker) ∧
    (pos = bounds.start ∨ bytes[pos - 1]? ≠ some marker) ∧
    (pos + len ≥ bounds.stop ∨ bytes[pos + len]? ≠ some marker)

/-- Whether a reference may start at `pos` of a range from `start`. -/
def refBoundary (start pos : ℕ) : Bool :=
  pos = start ∨ (!isAsciiAlphanumeric (bytes.getD (pos - 1) 0) && bytes.getD (pos - 1) 0 != chr '@')

/-- The Crockford base32 alphabet with its aliases (reference.rs:81). -/
def isRefChar (byte : Fin 256) : Bool :=
  isAsciiAlphanumeric byte && toAsciiLowercase byte != chr 'u'

def minCodeLen : ℕ := 5

def maxCodeLen : ℕ := 25

/-- The rest of the loop of `emit_text_with_refs` over a range from `start` to `stop`. -/
def emitRefsFrom (bytes : Source) (start stop : ℕ) : ℕ → ℕ → ℕ → List Token
  | 0, cursor, _ => if cursor < stop then [⟨.text, ⟨cursor, stop⟩⟩] else []
  | fuel + 1, cursor, pos =>
    if pos + 1 < stop then
      if bytes[pos]? ≠ some (chr '@') ∨ bytes[pos + 1]? ≠ some (chr '@') ∨
        !refBoundary bytes start pos then
        emitRefsFrom bytes start stop fuel cursor (pos + 1)
      else
        let codeStart := pos + 2
        let codeEnd := skipWhile isRefChar bytes codeStart stop
        let len := codeEnd - codeStart
        let terminated := codeEnd ≥ stop ∨ !isAsciiAlphanumeric (bytes.getD codeEnd 0)
        let gated := minCodeLen ≤ len ∧ len ≤ maxCodeLen
        if gated ∧ terminated then
          (if cursor < pos then [⟨.text, ⟨cursor, pos⟩⟩] else []) ++
            ⟨.messageRef, ⟨pos, codeEnd⟩⟩ :: emitRefsFrom bytes start stop fuel codeEnd codeEnd
        else emitRefsFrom bytes start stop fuel cursor (max codeEnd (pos + 1))
    else if cursor < stop then [⟨.text, ⟨cursor, stop⟩⟩] else []

def emitTextWithRefs (start stop : ℕ) : List Token :=
  emitRefsFrom bytes start stop (stop - start) start start

/-- The loop of `emit_text_with_urls` over the links found from `start` on. -/
def emitUrls (bytes : Source) (start stop : ℕ) : ℕ → List Span → List Token
  | cursor, [] => emitTextWithRefs bytes cursor stop
  | cursor, url :: rest =>
    emitTextWithRefs bytes cursor (start + url.start) ++
      ⟨.url, ⟨start + url.start, start + url.stop⟩⟩ ::
      emitUrls bytes start stop (start + url.stop) rest

def emitTextWithUrls (start stop : ℕ) : List Token :=
  if stop ≤ start then []
  else emitUrls bytes start stop start (findUrls (between bytes start stop))

def findEmphasisClose (opening stop : ℕ) (kind : EmphasisKind) : Option EmphasisSpan :=
  let inside := opening + kind.len
  ((List.range' inside (stop + 1 - kind.len - inside)).find? fun pos =>
      exactMarker bytes pos ⟨inside, stop⟩ (chr '*') kind.len && contentHasNonWsEdges bytes
        inside pos).map
    fun pos =>
      { kind := kind
        opening := ⟨opening, inside⟩
        content := ⟨inside, pos⟩
        close := ⟨pos, pos + kind.len⟩ }

/-- The emphasis of one kind that opens at `pos`. -/
def emphasisAt (range : Span) (pos : ℕ) (allowed : Bool) (kind : EmphasisKind) :
    Option EmphasisSpan :=
  if allowed ∧ exactMarker bytes pos range (chr '*') kind.len then
    findEmphasisClose bytes pos range.stop kind
  else none

def findNextEmphasis (range : Span) (allowBold allowItalic : Bool) : Option EmphasisSpan :=
  (List.range' range.start (range.stop - range.start)).findSome? fun pos =>
    (emphasisAt bytes range pos (allowBold && allowItalic) .both).or
      ((emphasisAt bytes range pos allowBold .bold).or
        (emphasisAt bytes range pos allowItalic .italic))

/-- The events around an emphasised content, for the tokens of the content. -/
def wrapEmphasis (span : EmphasisSpan) (inner : List Token) : List Token :=
  match span.kind with
  | .bold => ⟨.boldStart, span.opening⟩ :: inner ++ [⟨.boldEnd, span.close⟩]
  | .italic => ⟨.italicStart, span.opening⟩ :: inner ++ [⟨.italicEnd, span.close⟩]
  | .both =>
    ⟨.italicStart, ⟨span.opening.start, span.opening.start + 1⟩⟩ ::
      ⟨.boldStart, ⟨span.opening.start + 1, span.opening.stop⟩⟩ :: inner ++
      [⟨.boldEnd, ⟨span.close.start, span.close.start + 2⟩⟩,
      ⟨.italicEnd, ⟨span.close.start + 2, span.close.stop⟩⟩]

/-- Emphasis of one kind is not nested in itself. -/
def EmphasisKind.allowsBold : EmphasisKind → Bool → Bool
  | .italic, allowBold => allowBold
  | _, _ => false

def EmphasisKind.allowsItalic : EmphasisKind → Bool → Bool
  | .bold, allowItalic => allowItalic
  | _, _ => false

/-- `parse_emphasis`, from `cursor` to `stop`. -/
def parseEmphasis (bytes : Source) : ℕ → ℕ → ℕ → Bool → Bool → List Token
  | 0, cursor, stop, _, _ => emitTextWithUrls bytes cursor stop
  | fuel + 1, cursor, stop, allowBold, allowItalic =>
    if cursor < stop then
      match findNextEmphasis bytes ⟨cursor, stop⟩ allowBold allowItalic with
      | none => emitTextWithUrls bytes cursor stop
      | some span =>
        emitTextWithUrls bytes cursor span.opening.start ++
          wrapEmphasis span (parseEmphasis bytes fuel span.content.start span.content.stop
            (span.kind.allowsBold allowBold) (span.kind.allowsItalic allowItalic)) ++
          parseEmphasis bytes fuel span.close.stop stop allowBold allowItalic
    else []

def findInlineCodeClose (opening stop : ℕ) : Option ℕ :=
  (List.range' (opening + 1) (stop - (opening + 1))).find? fun pos =>
    isSingleBacktick bytes pos ⟨opening + 1, stop⟩ && contentHasNonWsEdges bytes (opening + 1) pos

/-- The next inline code at or after `cursor` in a range: its two backticks. -/
def nextInlineCode (range : Span) (cursor : ℕ) : Option (ℕ × ℕ) :=
  (List.range' cursor (range.stop - cursor)).findSome? fun pos =>
    if isSingleBacktick bytes pos range then
      (findInlineCodeClose bytes pos range.stop).map fun close => (pos, close)
    else none

/-- The rest of the loop of `tokenize_inline`, from `cursor`. -/
def tokenizeInlineFrom (bytes : Source) (range : Span) : ℕ → ℕ → List Token
  | 0, cursor => parseEmphasis bytes (range.stop - cursor) cursor range.stop true true
  | fuel + 1, cursor =>
    match nextInlineCode bytes range cursor with
    | none => parseEmphasis bytes (range.stop - cursor) cursor range.stop true true
    | some (pos, close) =>
      parseEmphasis bytes (pos - cursor) cursor pos true true ++
        ⟨.inlineCode, ⟨pos + 1, close⟩⟩ :: tokenizeInlineFrom bytes range fuel (close + 1)

def tokenizeInline (start stop : ℕ) : List Token :=
  tokenizeInlineFrom bytes ⟨start, stop⟩ (stop - start) start

/-! ## Lines (tokenizer.rs:282-321, 375-398, 661-715) -/

/-- Three backticks, not more. -/
def isFence (pos contentEnd start : ℕ) : Bool :=
  between bytes start (start + 3) = ascii "```" ∧
    (start = pos ∨ bytes[start - 1]? ≠ some (0x60 : Fin 256)) ∧
    (start + 3 = contentEnd ∨ bytes[start + 3]? ≠ some (0x60 : Fin 256))

def fenceOpener (pos contentEnd : ℕ) : Option Fence :=
  (List.range' pos (contentEnd + 1 - 3 - pos)).findSome? fun start =>
    if isFence bytes pos contentEnd start then
      if between bytes (start + 3) contentEnd = [] then some (.bare start (start = pos))
      else if (between bytes (start + 3) contentEnd).all isAsciiAlphanumeric then
        some (.withLanguage start ⟨start + 3, contentEnd⟩)
      else none
    else none

def orderedMarkerLen (content : Source) : Option ℕ :=
  let digits := (content.takeWhile isAsciiDigit).length
  if digits = 0 then none
  else if content[digits]? = some (chr '.') ∧
    content[digits + 1]? = some (chr ' ') then some (digits + 2)
  else none

def isBlankByte (byte : Fin 256) : Bool := byte = chr ' ' ∨ byte = chr '\t'

def classifyLine (start stop : ℕ) : LineKind :=
  let line := between bytes start stop
  if line.all isBlankByte then .blank
  else
    match fenceOpener bytes start stop with
    | some fence => .fence fence
    | none =>
      if (ascii "# ").isPrefixOf line then .header
      else if (ascii "- ").isPrefixOf line ∨ (ascii "* ").isPrefixOf line then
        .listItem .unordered 2
      else
        match orderedMarkerLen line with
        | some markerLen => .listItem .ordered markerLen
        | none => .text

/-- Where the quote markers that start at `pos` end. -/
def quoteEnds (bytes : Source) : ℕ → ℕ → List ℕ
  | 0, _ => []
  | fuel + 1, pos =>
    if bytes[pos]? = some (chr '>') then
      let stop := if bytes[pos + 1]? = some (chr ' ') then pos + 2 else pos + 1
      stop :: quoteEnds bytes fuel stop
    else []

/-- The line that starts at `pos`. -/
def scanLine (pos : ℕ) : SourceLine :=
  let prefixEnds := quoteEnds bytes (bytes.length - pos) pos
  let contentStart := prefixEnds.getLastD pos
  let stop := skipWhile (fun byte => byte != chr '\n') bytes contentStart bytes.length
  let contentEnd := if pos < stop ∧ bytes[stop - 1]? = some (chr '\r') then stop - 1 else stop
  { start := pos
    contentEnd := contentEnd
    next := if stop < bytes.length then stop + 1 else stop
    prefixEnds := prefixEnds
    kind := classifyLine bytes contentStart contentEnd
    closingFence := none }

def scanLinesFrom (bytes : Source) : ℕ → ℕ → List SourceLine
  | 0, _ => []
  | fuel + 1, pos =>
    if pos < bytes.length then
      scanLine bytes pos :: scanLinesFrom bytes fuel (scanLine bytes pos).next
    else []

def scanLines : List SourceLine := scanLinesFrom bytes bytes.length 0

def SourceLine.isFenceLine (line : SourceLine) : Bool :=
  match line.kind with
  | .fence _ => true
  | _ => false

def SourceLine.isStandaloneBare (line : SourceLine) : Bool :=
  match line.kind with
  | .fence fence => fence.isStandaloneBare
  | _ => false

/-- `truncate` or `resize`, whichever gives `len` entries. -/
def resizeFences (nextFence : List (Option ℕ)) (len : ℕ) : List (Option ℕ) :=
  if nextFence.length > len then nextFence.take len
  else nextFence ++ List.replicate (len - nextFence.length) none

/-- The reverse pass over the lines from `index` on: the next fence of each depth before them,
and the lines with their closing fences. -/
def matchFencesFrom : ℕ → List SourceLine → List (Option ℕ) × List SourceLine
  | _, [] => ([none], [])
  | index, line :: rest =>
    let later := matchFencesFrom (index + 1) rest
    let nextFence := resizeFences later.1 (line.quoteDepth + 1)
    let line' := if line.isFenceLine then
        { line with closingFence := nextFence.getD line.quoteDepth none }
      else line
    (if line.isStandaloneBare then nextFence.set line.quoteDepth (some index)
      else nextFence, line' :: later.2)

def matchFences (lines : List SourceLine) : List SourceLine := (matchFencesFrom 0 lines).2

/-! ## Blocks (tokenizer.rs:130-280, 400-451) -/

/-- `out` and the variables of the block loop. -/
structure Blocks where
  out : List Token
  quoteDepth : ℕ
  paragraphEnd : Option ℕ
  suppressBlocks : Bool
  openList : Option ListKind
deriving DecidableEq, Repr

namespace Blocks

def empty : Blocks :=
  { out := [], quoteDepth := 0, paragraphEnd := none, suppressBlocks := false, openList := none }

/-- The tokens an inline function pushes. -/
def emit (st : Blocks) (tokens : List Token) : Blocks := { st with out := st.out ++ tokens }

def push (st : Blocks) (kind : TokenKind) (start stop : ℕ) : Blocks :=
  st.emit [⟨kind, ⟨start, stop⟩⟩]

def pushEmpty (st : Blocks) (kind : TokenKind) (pos : ℕ) : Blocks := st.push kind pos pos

def closeList (st : Blocks) (pos : ℕ) : Blocks :=
  if st.openList.isSome then { st.pushEmpty .listEnd pos with openList := none } else st

def closeParagraph (st : Blocks) (pos : ℕ) : Blocks :=
  if st.paragraphEnd.isSome then
    { st.pushEmpty .paragraphEnd pos with paragraphEnd := none, suppressBlocks := false }
  else st

def changeQuoteDepth (st : Blocks) (target pos : ℕ) : Blocks :=
  { st.emit (List.replicate (st.quoteDepth - target) ⟨.blockQuoteEnd, ⟨pos, pos⟩⟩ ++
      List.replicate (target - st.quoteDepth) ⟨.blockQuoteStart, ⟨pos, pos⟩⟩) with
    quoteDepth := target }

/-- Closes what a change of the quote depth ends. -/
def requote (st : Blocks) (line : SourceLine) : Blocks :=
  if line.quoteDepth ≠ st.quoteDepth then
    ((st.closeParagraph line.start).closeList line.start).changeQuoteDepth
      line.quoteDepth line.start
  else st

def isBlank (line : SourceLine) : Bool := line.kind = .blank

/-- A run of blank lines from `line` on, and the index after it. -/
def blankRun (lines : List SourceLine) (index : ℕ) (line : SourceLine) (st : Blocks) : Blocks × ℕ :=
  let st := (st.closeParagraph line.start).closeList line.start
  let blanks := (lines.drop (index + 1)).takeWhile isBlank
  let nextIndex := index + 1 + blanks.length
  let st := if 0 < index ∧ nextIndex < lines.length then
      st.push .blankLine line.contentStart ((blanks.getLastD line).contentEnd)
    else st
  (blanks.foldl (fun st blank => st.changeQuoteDepth blank.quoteDepth blank.start) st, nextIndex)

/-- A line of a paragraph goes on after a break, or opens the paragraph. -/
def enterParagraph (st : Blocks) (line : SourceLine) : Blocks :=
  match st.paragraphEnd with
  | some previousEnd => st.push .hardBreak previousEnd line.start
  | none => st.pushEmpty .paragraphStart line.start

/-- The text before a fence on its line. -/
def leadingText (line : SourceLine) (fenceStart : ℕ) (st : Blocks) : Blocks :=
  if line.contentStart < fenceStart then
    { (st.enterParagraph line).emit (tokenizeInline bytes line.contentStart fenceStart) with
      paragraphEnd := some fenceStart }
  else st

def codeBlock (lines : List SourceLine) (index : ℕ) (line : SourceLine)
    (fence : Fence) (closingIndex : ℕ) (st : Blocks) : Blocks :=
  let st := (leadingText bytes line fence.start (st.closeList line.start)).closeParagraph
    fence.start
  let st := st.push (.codeBlockStart fence.lang) fence.start line.contentEnd
  let st := st.emit ((between lines (index + 1) closingIndex).map fun codeLine =>
    ⟨.codeBlockLine, ⟨codeLine.contentAtDepth line.quoteDepth, codeLine.contentEnd⟩⟩)
  match lines[closingIndex]? with
  | some closing => st.push .codeBlockEnd closing.contentStart closing.contentEnd
  | none => st

def headerLine (line : SourceLine) (st : Blocks) : Blocks :=
  let st := (st.closeParagraph line.start).closeList line.start
  let st := st.push .headerStart line.contentStart (line.contentStart + 2)
  (st.emit (tokenizeInline bytes (line.contentStart + 2) line.contentEnd)).pushEmpty .headerEnd
    line.next

def listStart : ListKind → TokenKind
  | .unordered => .unorderedListStart
  | .ordered => .orderedListStart

/-- Opens a list of this kind unless one is open. -/
def enterList (st : Blocks) (kind : ListKind) (pos : ℕ) : Blocks :=
  if st.openList ≠ some kind then
    { (st.closeList pos).pushEmpty (listStart kind) pos with openList := some kind }
  else st

def listItem (line : SourceLine) (kind : ListKind) (markerLen : ℕ)
    (st : Blocks) : Blocks :=
  let st := (st.closeParagraph line.start).enterList kind line.start
  let contentStart := line.contentStart + markerLen
  let st := st.push (.listItemStart ⟨line.contentStart, contentStart⟩)
    line.contentStart contentStart
  (st.emit (tokenizeInline bytes contentStart line.contentEnd)).pushEmpty .listItemEnd line.next

def textLine (line : SourceLine) (st : Blocks) : Blocks :=
  { ((st.closeList line.start).enterParagraph line).emit
      (tokenizeInline bytes line.contentStart line.contentEnd) with
    paragraphEnd := some line.contentEnd
    suppressBlocks := st.suppressBlocks || line.isFenceLine }

/-- One round of the block loop, and the index of the next. -/
def emitLine (lines : List SourceLine) (index : ℕ) (line : SourceLine)
    (st : Blocks) : Blocks × ℕ :=
  let st := st.requote line
  if isBlank line then blankRun lines index line st
  else if st.suppressBlocks then (textLine bytes line st, index + 1)
  else
    match line.kind, line.closingFence with
    | .fence fence, some closingIndex =>
      (codeBlock bytes lines index line fence closingIndex st, closingIndex + 1)
    | .header, _ => (headerLine bytes line st, index + 1)
    | .listItem kind markerLen, _ => (listItem bytes line kind markerLen st, index + 1)
    | _, _ => (textLine bytes line st, index + 1)

def emitLines (bytes : Source) (lines : List SourceLine) : ℕ → ℕ → Blocks → Blocks
  | 0, _, st => st
  | fuel + 1, index, st =>
    match lines[index]? with
    | none => st
    | some line =>
      emitLines bytes lines fuel (emitLine bytes lines index line st).2
        (emitLine bytes lines index line st).1

end Blocks

def truncateSpan (span : Span) : Span := ⟨u32 span.start, u32 span.stop⟩

def TokenKind.truncate : TokenKind → TokenKind
  | .listItemStart marker => .listItemStart (truncateSpan marker)
  | .codeBlockStart lang => .codeBlockStart (lang.map truncateSpan)
  | kind => kind

/-- Ranges are pushed as `u32`. -/
def Token.truncate (token : Token) : Token := ⟨token.kind.truncate, truncateSpan token.range⟩

/-- The events of the source before their offsets are narrowed. -/
def blocks : Blocks :=
  let lines := matchFences (scanLines bytes)
  let st := Blocks.emitLines bytes lines lines.length 0 Blocks.empty
  ((st.closeParagraph bytes.length).closeList bytes.length).changeQuoteDepth 0 bytes.length

def tokenize (source : List Char) : List Token := (blocks (utf8 source)).out.map Token.truncate

end Chatt.MessageFormat
