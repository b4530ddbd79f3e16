import Chatt.Analysis.SourceLines

/-!
# The tokenizer lays out its source

The block loop keeps one invariant: what has been emitted lays out the source up to the line it
is at, and the scopes that are open are the ones its variables say. Each helper and each kind of
line is taken through it, then the loop, then the final closings.
-/

namespace Chatt.MessageFormat

open Lib List

/-! ## What the variables of the loop say -/

def quoteScopes (depth : ℕ) : List Scope := List.replicate depth .blockQuote

/-- The scopes the loop has open, innermost first. -/
def Blocks.scopes (st : Blocks) : List Scope :=
  (if st.paragraphEnd.isSome then [.paragraph] else []) ++
    ((if st.openList.isSome then [.list] else []) ++ quoteScopes st.quoteDepth)

/-- The source up to `pos` is emitted. -/
structure Emitted (bytes : Source) (pos : ℕ) (st : Blocks) : Prop where
  laid : Laid bytes 0 pos [] st.scopes st.out
  apart : st.paragraphEnd = none ∨ st.openList = none
  boundary : ∀ stop, st.paragraphEnd = some stop → CharBoundary bytes stop

/-- No paragraph and no list is open. -/
def Blocks.Closed (st : Blocks) : Prop := st.paragraphEnd = none ∧ st.openList = none

lemma Blocks.Closed.scopes {st : Blocks} (h : st.Closed) :
    st.scopes = quoteScopes st.quoteDepth := by
  rw [Blocks.scopes, h.1, h.2]
  rfl

section Events

variable {bytes : Source} {pos a : ℕ}

/-- An event at a position of the source. -/
lemma soundEvent {kind : TokenKind} (hpos : CharBoundary bytes pos)
      (hparts : Token.parts ⟨kind, ⟨pos, pos⟩⟩ = []) :
    Token.OnBoundaries bytes ⟨kind, ⟨pos, pos⟩⟩ ∧ Token.ReadsMarker bytes ⟨kind, ⟨pos, pos⟩⟩ := by
  cases kind <;> simp_all [Token.parts, Token.OnBoundaries, Token.ReadsMarker, Bounded]

lemma laid_opens {kind : TokenKind} {scope : Scope} (hkind : kind.mark = .opens scope)
      (hparts : Token.parts ⟨kind, ⟨pos, pos⟩⟩ = [])
    (hpos : CharBoundary bytes pos) (scopes : List Scope) :
    Laid bytes a a scopes (scope :: scopes) [⟨kind, ⟨pos, pos⟩⟩] := by
  refine Laid.event hparts ?_ (soundEvent hpos hparts) a
  intro outer
  rw [hkind]
  rfl

lemma laid_closes {kind : TokenKind} {scope : Scope} (hkind : kind.mark = .closes scope)
      (hparts : Token.parts ⟨kind, ⟨pos, pos⟩⟩ = [])
    (hpos : CharBoundary bytes pos) (scopes : List Scope) :
    Laid bytes a a (scope :: scopes) scopes [⟨kind, ⟨pos, pos⟩⟩] := by
  refine Laid.event hparts ?_ (soundEvent hpos hparts) a
  intro outer
  rw [hkind]
  exact if_pos rfl

/-- A break or a blank line between two positions. -/
lemma laid_flat {kind : TokenKind} (hkind : kind = .hardBreak ∨ kind = .blankLine) {b c : ℕ}
      (hb : CharBoundary bytes b)
    (hc : CharBoundary bytes c) (scopes : List Scope) :
    Laid bytes a a scopes scopes [⟨kind, ⟨b, c⟩⟩] := by
  refine Laid.event ?_ ?_ ?_ a
  · rcases hkind with rfl | rfl <;> rfl
  · intro outer
    rcases hkind with rfl | rfl <;> rfl
  · rcases hkind with rfl | rfl <;> exact ⟨⟨⟨hb, hc⟩, trivial⟩, trivial⟩

lemma laid_quoteEnds (hpos : CharBoundary bytes pos) (target : ℕ) (count : ℕ) :
    Laid bytes a a (quoteScopes (target + count)) (quoteScopes target)
      (List.replicate count ⟨.blockQuoteEnd, ⟨pos, pos⟩⟩) := by
  induction count with
  | zero => exact Laid.nil bytes a _
  | succ count ih => exact (laid_closes rfl rfl hpos _).append ih

lemma laid_quoteStarts (hpos : CharBoundary bytes pos) (depth : ℕ) (count : ℕ) :
    Laid bytes a a (quoteScopes depth) (quoteScopes (depth + count))
      (List.replicate count ⟨.blockQuoteStart, ⟨pos, pos⟩⟩) := by
  induction count generalizing depth with
  | zero => exact Laid.nil bytes a _
  | succ count ih =>
    have hrest := ih (depth + 1)
    rw [show depth + 1 + count = depth + (count + 1) by omega] at hrest
    exact (laid_opens rfl rfl hpos _).append hrest

end Events

/-! ## The helpers of the loop -/

namespace Emitted

variable {bytes : Source} {a b pos : ℕ} {st : Blocks}

section

variable (h : Emitted bytes a st)

include h

/-- Bytes that stand for themselves. -/
lemma emit {tokens : List Token} (hlaid : Laid bytes a b [] [] tokens) :
    Emitted bytes b (st.emit tokens) :=
  ⟨h.laid.append (hlaid.frame st.scopes), h.apart, h.boundary⟩

/-- Bytes no token stands for. -/
lemma skip (hgap : ∀ scopes, Laid bytes a b scopes scopes []) : Emitted bytes b st := by
  have hlaid := h.laid.append (hgap st.scopes)
  rw [append_nil] at hlaid
  exact ⟨hlaid, h.apart, h.boundary⟩

lemma closeParagraph (hpos : CharBoundary bytes pos) :
    Emitted bytes a (st.closeParagraph pos) ∧ (st.closeParagraph pos).paragraphEnd = none ∧
    (st.closeParagraph pos).openList = st.openList := by
  rw [Blocks.closeParagraph]
  split
  case isTrue hopen =>
    refine ⟨⟨?_, .inl rfl, by simp⟩, rfl, rfl⟩
    have hlaid := h.laid
    rw [Blocks.scopes, if_pos hopen] at hlaid
    exact hlaid.append (laid_closes rfl rfl hpos _)
  case isFalse hopen =>
    have hnone : st.paragraphEnd = none := by simpa using hopen
    exact ⟨h, hnone, rfl⟩

lemma closeList (hpos : CharBoundary bytes pos) :
    Emitted bytes a (st.closeList pos) ∧ (st.closeList pos).openList = none ∧
    (st.closeList pos).paragraphEnd = st.paragraphEnd := by
  rw [Blocks.closeList]
  split
  case isTrue hopen =>
    have hparagraph : st.paragraphEnd = none := by
      rcases h.apart with hnone | hnone
      · exact hnone
      · rw [hnone] at hopen
        simp at hopen
    refine ⟨⟨?_, .inr rfl, h.boundary⟩, rfl, rfl⟩
    have hlaid := h.laid
    rw [Blocks.scopes, hparagraph, if_pos hopen] at hlaid
    have hclose : Laid bytes a a (.list :: quoteScopes st.quoteDepth) (quoteScopes st.quoteDepth)
        [⟨.listEnd, ⟨pos, pos⟩⟩] := laid_closes rfl rfl hpos _
    have hscopes : Blocks.scopes { st.pushEmpty .listEnd pos with openList := none } =
        quoteScopes st.quoteDepth := Blocks.Closed.scopes ⟨hparagraph, rfl⟩
    rw [hscopes]
    exact hlaid.append hclose
  case isFalse hopen =>
    have hnone : st.openList = none := by simpa using hopen
    exact ⟨h, hnone, rfl⟩

/-- Closing the paragraph and the list. -/
lemma closeBoth (hpos : CharBoundary bytes pos) :
    Emitted bytes a ((st.closeParagraph pos).closeList pos) ∧
    ((st.closeParagraph pos).closeList pos).Closed := by
  obtain ⟨hparagraph, hnone, _⟩ := h.closeParagraph hpos
  obtain ⟨hlist, hnone', hsame⟩ := hparagraph.closeList hpos
  exact ⟨hlist, hsame.trans hnone, hnone'⟩

lemma changeQuoteDepth (hclosed : st.Closed) (hpos : CharBoundary bytes pos) (target : ℕ) :
    Emitted bytes a (st.changeQuoteDepth target pos) ∧ (st.changeQuoteDepth target pos).Closed := by
  have hclosed' : (st.changeQuoteDepth target pos).Closed := hclosed
  refine ⟨⟨?_, .inl hclosed.1, h.boundary⟩, hclosed'⟩
  have hlaid := h.laid
  rw [hclosed.scopes] at hlaid
  rw [hclosed'.scopes]
  have hend : Laid bytes a a (quoteScopes st.quoteDepth) (quoteScopes (min st.quoteDepth target))
      (List.replicate (st.quoteDepth - target) ⟨.blockQuoteEnd, ⟨pos, pos⟩⟩) := by
    have hends := laid_quoteEnds (a := a) hpos (min st.quoteDepth target) (st.quoteDepth - target)
    rwa [show min st.quoteDepth target + (st.quoteDepth - target) = st.quoteDepth by omega] at hends
  have hstart : Laid bytes a a (quoteScopes (min st.quoteDepth target)) (quoteScopes target)
      (List.replicate (target - st.quoteDepth) ⟨.blockQuoteStart, ⟨pos, pos⟩⟩) := by
    have hstarts := laid_quoteStarts (a := a) hpos (min st.quoteDepth target)
        (target - st.quoteDepth)
    rwa [show min st.quoteDepth target + (target - st.quoteDepth) = target by omega] at hstarts
  exact hlaid.append (hend.append hstart)

lemma requote {line : SourceLine} (hpos : CharBoundary bytes line.start) :
    Emitted bytes a (st.requote line) := by
  rw [Blocks.requote]
  split
  · obtain ⟨hboth, hclosed⟩ := h.closeBoth hpos
    exact (hboth.changeQuoteDepth hclosed hpos line.quoteDepth).1
  · exact h

/-- A line of text is inside a paragraph. -/
lemma enterParagraph {line : SourceLine} (hlist : st.openList = none)
      (hpos : CharBoundary bytes line.start) :
    Laid bytes 0 a [] (.paragraph :: quoteScopes st.quoteDepth) (st.enterParagraph line).out := by
  have hlaid := h.laid
  rw [Blocks.scopes, hlist] at hlaid
  rw [Blocks.enterParagraph]
  split
  case h_1 previousEnd hprevious =>
    rw [hprevious] at hlaid
    exact hlaid.append (laid_flat (.inl rfl) (h.boundary previousEnd hprevious) hpos _)
  case h_2 hprevious =>
    rw [hprevious] at hlaid
    exact hlaid.append (laid_opens rfl rfl hpos _)

end

end Emitted

/-! ## Lines -/

namespace LineAt

variable {bytes : Source} {line : SourceLine}

/-- The quote markers of a line, down to a depth of it. -/
lemma laid_quotes (h : LineAt bytes line) {depth : ℕ} (hdepth : depth ≤ line.quoteDepth)
      (scopes : List Scope) :
    Laid bytes line.start (line.contentAtDepth depth) scopes scopes [] := by
  obtain ⟨hle, _, hmarkers, _⟩ := h.quotes depth hdepth
  exact Laid.gap .quotePrefix hle rfl ⟨h.lineStart, hmarkers⟩ scopes

lemma laid_terminator (h : LineAt bytes line) (scopes : List Scope) :
    Laid bytes line.contentEnd line.next scopes scopes [] :=
  Laid.gap .terminator h.content.2 rfl h.terminator scopes

/-- A blank line stands for no token. -/
lemma laid_blank (h : LineAt bytes line) (hblank : line.kind = .blank) (scopes : List Scope) :
    Laid bytes line.start line.next scopes scopes [] := by
  have hkind := h.kind
  rw [hblank] at hkind
  have hquotes := h.laid_quotes (Nat.le_refl _) scopes
  have hcontent : Laid bytes line.contentStart line.contentEnd scopes scopes [] := by
    refine Laid.gap .blankLine h.content.1 rfl ⟨?_, hkind, _, h.terminator⟩ scopes
    exact ⟨line.start, h.start_le, h.lineStart, (h.quotes _ (Nat.le_refl _)).2.2.1⟩
  exact (hquotes.append hcontent).append (h.laid_terminator scopes)

/-- A line of a code block: the quote markers of the block, then its text. -/
lemma laid_code (h : LineAt bytes line) {depth : ℕ} (hdepth : depth ≤ line.quoteDepth)
      (hnext : line.next < bytes.length) :
    Laid bytes line.start line.next [] []
      [⟨.codeBlockLine, ⟨line.contentAtDepth depth, line.contentEnd⟩⟩] := by
  obtain ⟨_, hle, _, hboundary⟩ := h.quotes depth hdepth
  have hend := h.contentEnd_lt hnext
  have hcontent := Nat.le_trans hle h.content.1
  -- the text may be empty, so it is taken together with its terminator
  have htext : Laid bytes (line.contentAtDepth depth) line.next [] []
      [⟨.codeBlockLine, ⟨line.contentAtDepth depth, line.contentEnd⟩⟩] := by
    refine ⟨⟨[⟨.leaf, ⟨line.contentAtDepth depth, line.contentEnd⟩⟩,
      ⟨.terminator, ⟨line.contentEnd, line.next⟩⟩], ?_, rfl, ?_⟩, fun outer => rfl, ?_, ?_, ?_⟩
    · exact ⟨rfl, hcontent, rfl, hend.le, rfl⟩
    · intro part hpart
      rcases mem_cons.mp hpart with rfl | hpart
      · trivial
      · rw [mem_singleton.mp hpart]
        exact h.terminator
    · intro token htoken
      rw [mem_singleton.mp htoken]
      exact ⟨⟨⟨hboundary, h.boundaries.1⟩, trivial⟩, trivial⟩
    · exact pairwise_singleton _ _
    · intro range hrange
      rw [mem_singleton.mp hrange]
      exact ⟨Nat.le_refl _, Nat.lt_of_le_of_lt hcontent hend, hend.le⟩
  exact (h.laid_quotes hdepth []).append htext

end LineAt

/-! ## Kinds of lines -/

section Lines

variable {bytes : Source} {lines : List SourceLine} {index : ℕ} {line : SourceLine} {st : Blocks}
  {fence : Fence}

@[simp] lemma openList_enterParagraph (st : Blocks) (line : SourceLine) :
    (st.enterParagraph line).openList = st.openList := by
  rw [Blocks.enterParagraph]
  split <;> rfl

@[simp] lemma quoteDepth_enterParagraph (st : Blocks) (line : SourceLine) :
    (st.enterParagraph line).quoteDepth = st.quoteDepth := by
  rw [Blocks.enterParagraph]
  split <;> rfl

/-- A paragraph is open. -/
lemma emitted_paragraph {b stop : ℕ} (hlist : st.openList = none)
      (hlaid : Laid bytes 0 b [] (.paragraph :: quoteScopes st.quoteDepth) st.out)
    (hparagraph : st.paragraphEnd = some stop) (hstop : CharBoundary bytes stop) :
    Emitted bytes b st := by
  refine ⟨?_, .inr hlist, ?_⟩
  · rw [Blocks.scopes, hparagraph, hlist]
    exact hlaid
  · intro stop' hstop'
    obtain rfl := Option.some.inj (hparagraph.symm.trans hstop')
    exact hstop

lemma val_lt_of_all {pattern : Source} (h : (pattern.all fun byte => byte.val < 128) = true) :
    ∀ byte ∈ pattern, byte.val < 128 := by
  intro byte hbyte
  exact of_decide_eq_true (all_eq_true.mp h byte hbyte)

/-- A line that is laid out from its content on. -/
lemma emitted_content (hline : LineAt bytes line) (h : Emitted bytes line.start st)
      {tokens : List Token}
    (hlaid : Laid bytes line.contentStart line.contentEnd [] [] tokens) :
    Emitted bytes line.next (st.emit tokens) :=
  ((h.skip (hline.laid_quotes (Nat.le_refl _))).emit hlaid).skip hline.laid_terminator

lemma emitted_enterList {a pos : ℕ} (h : Emitted bytes a st) (hnone : st.paragraphEnd = none)
    (hpos : CharBoundary bytes pos) (kind : ListKind) :
    Emitted bytes a (st.enterList kind pos) := by
  rw [Blocks.enterList]
  split
  case isFalse => exact h
  case isTrue =>
    obtain ⟨hlist, hclosed, hsame⟩ := h.closeList hpos
    have hparagraph := hsame.trans hnone
    refine ⟨?_, .inl hparagraph, ?_⟩
    · have hlaid := hlist.laid
      rw [Blocks.Closed.scopes ⟨hparagraph, hclosed⟩] at hlaid
      have hstart : Laid bytes a a (quoteScopes (st.closeList pos).quoteDepth)
          (.list :: quoteScopes (st.closeList pos).quoteDepth)
          [⟨Blocks.listStart kind, ⟨pos, pos⟩⟩] := by
        cases kind with
        | unordered | ordered => exact laid_opens rfl rfl hpos _
      change Laid bytes 0 a [] ((if (st.closeList pos).paragraphEnd.isSome then [Scope.paragraph]
        else []) ++ (.list :: quoteScopes (st.closeList pos).quoteDepth)) _
      rw [hparagraph]
      exact hlaid.append hstart
    · intro stop hstop
      exact absurd (hparagraph.symm.trans hstop) (by simp)

lemma val_lt_of_listMarker {read : Source}
    (h : read = ascii "- " ∨ read = ascii "* " ∨ ∃ digits, digits ≠ [] ∧ digits.all isAsciiDigit ∧
      read = digits ++ ascii ". ") : ∀ byte ∈ read, byte.val < 128 := by
  have hdigit : ∀ byte : Fin 256, isAsciiDigit byte = true → byte.val < 128 := by decide +kernel
  rcases h with rfl | rfl | ⟨digits, _, hdigits, rfl⟩
  · exact val_lt_of_all rfl
  · exact val_lt_of_all rfl
  intro byte hbyte
  rcases mem_append.mp hbyte with hbyte | hbyte
  · exact hdigit byte (all_eq_true.mp hdigits byte hbyte)
  · exact @val_lt_of_all (ascii ". ") rfl byte hbyte

/-! ## Blank lines -/

/-- The rest of a run of blank lines. -/
lemma emitted_blanks (hlined : Lined bytes lines) (blanks : List SourceLine) {i : ℕ}
    (hblanks : ∀ (k : ℕ) (blank : SourceLine), blanks[k]? = some blank →
      lines[i + k]? = some blank ∧ blank.kind = .blank)
    (h : Emitted bytes (startOf bytes lines i) st) (hclosed : st.Closed) :
    Emitted bytes (startOf bytes lines (i + blanks.length))
      (blanks.foldl (fun st blank => st.changeQuoteDepth blank.quoteDepth blank.start) st) := by
  induction blanks generalizing i st with
  | nil => exact h
  | cons blank rest ih =>
    obtain ⟨hget, hkind⟩ := hblanks 0 blank rfl
    have hline := hlined.lineAt hget
    rw [Nat.add_zero] at hget
    rw [startOf_of_getElem? hget] at h
    obtain ⟨hquote, hclosed'⟩ := h.changeQuoteDepth hclosed hline.start_boundary blank.quoteDepth
    have hnext := hquote.skip (hline.laid_blank hkind)
    rw [hlined.next hget] at hnext
    rw [foldl_cons, length_cons, show i + (rest.length + 1) = i + 1 + rest.length by omega]
    refine ih ?_ hnext hclosed'
    intro k other hother
    have hat := hblanks (k + 1) other hother
    rwa [show i + (k + 1) = i + 1 + k by omega] at hat

lemma getElem?_blanks {k : ℕ} {blank : SourceLine}
      (h : ((lines.drop (index + 1)).takeWhile Blocks.isBlank)[k]? = some blank) :
    lines[index + 1 + k]? = some blank ∧ blank.kind = .blank := by
  have hmem := mem_takeWhile_imp (mem_of_getElem? h)
  have hlt := (List.getElem?_eq_some_iff.mp h).1
  have hpre := List.prefix_iff_getElem?.mp
    (List.takeWhile_prefix (l := lines.drop (index + 1)) Blocks.isBlank) k hlt
  rw [getElem?_drop] at hpre
  refine ⟨?_, of_decide_eq_true hmem⟩
  rw [hpre, ← h]
  exact (getElem?_eq_getElem hlt).symm

lemma emitted_blankRun (hlined : Lined bytes lines) (hget : lines[index]? = some line)
      (hkind : line.kind = .blank) (h : Emitted bytes line.start st) :
    Emitted bytes (startOf bytes lines (Blocks.blankRun lines index line st).2)
      (Blocks.blankRun lines index line st).1 := by
  have hline := hlined.lineAt hget
  obtain ⟨hboth, hclosed⟩ := h.closeBoth hline.start_boundary
  rw [Blocks.blankRun]
  generalize (st.closeParagraph line.start).closeList line.start = closed at hboth hclosed ⊢
  generalize hblanks : (lines.drop (index + 1)).takeWhile Blocks.isBlank = blanks
  have hat : ∀ (k : ℕ) (blank : SourceLine), blanks[k]? = some blank →
      lines[index + 1 + k]? = some blank ∧ blank.kind = .blank := by
    rw [← hblanks]
    exact fun k blank hk => getElem?_blanks hk
  have hnext : Emitted bytes (startOf bytes lines (index + 1)) closed := by
    rw [← hlined.next hget]
    exact hboth.skip (hline.laid_blank hkind)
  apply emitted_blanks hlined blanks hat
  · split
    · -- the blank line's own event, up to the end of the last blank line
      have hlast : CharBoundary bytes (blanks.getLastD line).contentEnd := by
        rcases eq_nil_or_concat' blanks with rfl | ⟨rest, last, rfl⟩
        · exact hline.boundaries.1
        · rw [getLastD_concat]
          have hlast := (hat rest.length last (by simp)).1
          exact (hlined.lineAt hlast).boundaries.1
      exact hnext.emit (laid_flat (.inr rfl) hline.content_boundary hlast [])
    · exact hnext
  · split
    · exact hclosed
    · exact hclosed

/-! ## Code blocks -/

/-- The lines of a code block. -/
lemma laid_codeLines (hlined : Lined bytes lines) {depth : ℕ} (count : ℕ) {i : ℕ}
    (hdeep : ∀ (k : ℕ) (codeLine : SourceLine), i ≤ k → k < i + count → lines[k]? = some codeLine →
      depth ≤ codeLine.quoteDepth) (hend : i + count < lines.length) :
    Laid bytes (startOf bytes lines i) (startOf bytes lines (i + count)) [] []
      ((between lines i (i + count)).map fun codeLine =>
        ⟨.codeBlockLine, ⟨codeLine.contentAtDepth depth, codeLine.contentEnd⟩⟩) := by
  induction count generalizing i with
  | zero =>
    rw [Nat.add_zero, between_self]
    exact Laid.nil bytes _ []
  | succ count ih =>
    have hlt : i < lines.length := by omega
    have hget := getElem?_eq_getElem hlt
    have hline := hlined.lineAt hget
    have hnext := hlined.next hget
    -- another line follows, so this one ends with a newline
    have hafter : i + 1 < lines.length := by omega
    have hget' := getElem?_eq_getElem hafter
    have hinside : lines[i].next < bytes.length := by
      rw [hnext, startOf_of_getElem? hget']
      have hprogress := (hlined.lineAt hget').progress
      have hbound := (hlined.lineAt hget').boundaries.2.le
      omega
    have hcode := hline.laid_code (hdeep i _ (Nat.le_refl i) (by omega) hget) hinside
    have hstart : startOf bytes lines i = lines[i].start := startOf_of_getElem? hget
    rw [← hstart, hnext] at hcode
    have hrest := ih (i := i + 1)
      (fun k codeLine hlow hhigh => hdeep k codeLine (by omega) (by omega)) (by omega)
    rw [show i + 1 + count = i + (count + 1) by omega] at hrest
    rw [between_append lines (Nat.le_succ i) (by omega : i + 1 ≤ i + (count + 1)),
      between_one hget, map_append]
    exact hcode.append hrest

/-- The first bytes of a fence are its backticks. -/
lemma fence_ticks (hline : LineAt bytes line) (hkind : line.kind = .fence fence) {k : ℕ}
    (hk : k < 3) : bytes[fence.start + k]? = some (0x60 : Fin 256) := by
  have hread := hline.kind
  rw [hkind] at hread
  obtain ⟨⟨_, hroom⟩, ⟨lang, _, hticks⟩, _⟩ := hread
  have hat := getElem?_between bytes fence.start line.contentEnd k
  rw [if_pos (by omega), hticks, getElem?_append_left hk] at hat
  rw [← hat]
  interval_cases k <;> rfl

lemma laid_codeBlockStart (hcuts : AsciiCuts bytes) (hline : LineAt bytes line)
      (hkind : line.kind = .fence fence) :
    Laid bytes fence.start line.contentEnd [] [.codeBlock]
      [⟨.codeBlockStart fence.lang, ⟨fence.start, line.contentEnd⟩⟩] := by
  have hread := hline.kind
  rw [hkind] at hread
  obtain ⟨⟨_, hroom⟩, hticks, hlang, _⟩ := hread
  have hstart := (hcuts _ _ (fence_ticks hline hkind (by decide : 0 < 3)) (by decide)).1
  have hthird := (hcuts _ _ (fence_ticks hline hkind (by decide : 2 < 3)) (by decide)).2
  apply Laid.delimiter rfl (fun _ => rfl) rfl (by omega)
  refine ⟨⟨⟨hstart, hline.boundaries.1⟩, ?_⟩, hticks⟩
  intro span hspan
  rw [hlang span hspan]
  exact ⟨hthird, hline.boundaries.1⟩

/-- The line that closes a code block. -/
lemma laid_codeBlockEnd (hline : LineAt bytes line) (hbare : line.isStandaloneBare = true) :
    Laid bytes line.start line.next [.codeBlock] []
      [⟨.codeBlockEnd, ⟨line.contentStart, line.contentEnd⟩⟩] := by
  have hread := hline.kind
  rw [SourceLine.isStandaloneBare] at hbare
  split at hbare
  case h_2 => simp at hbare
  case h_1 fence hkind =>
    rw [hkind] at hread
    obtain ⟨_, ⟨lang, _, hticks⟩, _, hstandalone⟩ := hread
    obtain ⟨hstart, hend⟩ := hstandalone hbare
    have hlang : lang = [] := by
      have hlen := congrArg List.length hticks
      rw [length_between, length_append, show (ascii "```").length = 3 from rfl] at hlen
      exact length_eq_zero_iff.mp (by omega)
    rw [hlang, append_nil, hstart] at hticks
    have hmarker : Laid bytes line.contentStart line.contentEnd [.codeBlock] []
        [⟨.codeBlockEnd, ⟨line.contentStart, line.contentEnd⟩⟩] := by
      apply Laid.delimiter rfl (fun _ => rfl) rfl hline.content.1
      exact ⟨⟨⟨hline.content_boundary, hline.boundaries.1⟩, trivial⟩, hticks⟩
    exact ((hline.laid_quotes (Nat.le_refl _) _).append hmarker).append (hline.laid_terminator _)

/-! ## Lines of text -/

variable (hcuts : AsciiCuts bytes) (hlen : bytes.length < 2 ^ 32)

include hcuts hlen

section

variable (hline : LineAt bytes line)

include hline

/-- The text of a line from its content to `stop`, in a paragraph. -/
lemma laid_paragraphText (h : Emitted bytes line.start st) (hlist : st.openList = none) {stop : ℕ}
    (hle : line.contentStart ≤ stop) (hstop : CharBoundary bytes stop) :
    Laid bytes 0 stop [] (.paragraph :: quoteScopes st.quoteDepth)
      ((st.enterParagraph line).out ++ tokenizeInline bytes line.contentStart stop) := by
  have henter := h.enterParagraph hlist hline.start_boundary
  have hquotes := hline.laid_quotes (Nat.le_refl _) (.paragraph :: quoteScopes st.quoteDepth)
  have hinline := laid_tokenizeInline hcuts hlen hle hline.content_boundary hstop
  have hlaid := (henter.append hquotes).append
    (hinline.frame (.paragraph :: quoteScopes st.quoteDepth))
  rw [append_nil] at hlaid
  exact hlaid

lemma emitted_textLine (h : Emitted bytes line.start st) :
    Emitted bytes line.next (st.textLine bytes line) := by
  obtain ⟨hlist, hnone, _⟩ := h.closeList hline.start_boundary
  have htext := laid_paragraphText hcuts hlen hline hlist hnone hline.content.1 hline.boundaries.1
  have hopen : Emitted bytes line.contentEnd (st.textLine bytes line) := by
    refine emitted_paragraph ?_ ?_ rfl hline.boundaries.1
    · exact (openList_enterParagraph _ line).trans hnone
    · rw [show (st.textLine bytes line).quoteDepth = (st.closeList line.start).quoteDepth from
        quoteDepth_enterParagraph _ line]
      exact htext
  exact hopen.skip hline.laid_terminator

/-- The content of a line between its marker and the event that closes it. -/
lemma laid_marked {kind closing : TokenKind} {scope : Scope} {len : ℕ} (hpos : 0 < len)
      (hle : line.contentStart + len ≤ line.contentEnd)
    (hascii : ∀ byte ∈ between bytes line.contentStart (line.contentStart + len), byte.val < 128)
    (hopen : Bounded bytes ⟨line.contentStart, line.contentStart + len⟩ →
      Laid bytes line.contentStart (line.contentStart + len) [] [scope]
        [⟨kind, ⟨line.contentStart, line.contentStart + len⟩⟩]) (hmark :
        closing.mark = .closes scope)
    (hparts : Token.parts ⟨closing, ⟨line.next, line.next⟩⟩ = []) :
    Laid bytes line.contentStart line.contentEnd [] []
      (⟨kind, ⟨line.contentStart, line.contentStart + len⟩⟩ ::
        (tokenizeInline bytes (line.contentStart + len) line.contentEnd ++
          [⟨closing, ⟨line.next, line.next⟩⟩])) := by
  have hlast : CharBoundary bytes (line.contentStart + len) := by
    obtain ⟨byte, hbyte⟩ := @getElem?_of_boundary bytes (line.contentStart + len - 1) _
      hline.boundaries.1 (by omega)
    have hlt := hascii byte (mem_between_iff.mpr ⟨_, by omega, by omega, hbyte⟩)
    have hcut := (hcuts _ byte hbyte hlt).2
    rwa [Nat.sub_add_cancel (by omega)] at hcut
  have hmarker := hopen ⟨hline.content_boundary, hlast⟩
  have hinline := laid_tokenizeInline hcuts hlen hle hlast hline.boundaries.1
  have hclose : Laid bytes line.contentEnd line.contentEnd [scope] []
      [⟨closing, ⟨line.next, line.next⟩⟩] := laid_closes hmark hparts hline.boundaries.2 []
  exact hmarker.append ((hinline.frame [scope]).append hclose)

lemma emitted_headerLine (hkind : line.kind = .header) (h : Emitted bytes line.start st) :
    Emitted bytes line.next (st.headerLine bytes line) := by
  obtain ⟨hboth, _⟩ := h.closeBoth hline.start_boundary
  have hread := hline.kind
  rw [hkind] at hread
  have hopen : Bounded bytes ⟨line.contentStart, line.contentStart + 2⟩ →
      Laid bytes line.contentStart (line.contentStart + 2) [] [.header]
        [⟨.headerStart, ⟨line.contentStart, line.contentStart + 2⟩⟩] := by
    intro hbounded
    apply Laid.delimiter rfl (fun _ => rfl) rfl (Nat.le_add_right _ 2)
    exact ⟨⟨hbounded, trivial⟩, hread.2⟩
  have hascii : ∀ byte ∈ between bytes line.contentStart (line.contentStart + 2),
      byte.val < 128 := by
    rw [hread.2]
    exact val_lt_of_all rfl
  have hlaid := @laid_marked bytes line hcuts hlen hline .headerStart .headerEnd .header 2
    Nat.two_pos hread.1 hascii hopen rfl rfl
  have hemitted := emitted_content hline hboth hlaid
  simpa only [Blocks.headerLine, Blocks.pushEmpty, Blocks.push, Blocks.emit, append_assoc,
    singleton_append, cons_append, nil_append] using hemitted

lemma emitted_listItem {kind : ListKind} {markerLen : ℕ}
      (hkind : line.kind = .listItem kind markerLen)
    (h : Emitted bytes line.start st) :
    Emitted bytes line.next (st.listItem bytes line kind markerLen) := by
  obtain ⟨hparagraph, hnone, _⟩ := h.closeParagraph hline.start_boundary
  have henter := emitted_enterList hparagraph hnone hline.start_boundary kind
  have hread := hline.kind
  rw [hkind] at hread
  have hopen : Bounded bytes ⟨line.contentStart, line.contentStart + markerLen⟩ →
      Laid bytes line.contentStart (line.contentStart + markerLen) [] [.listItem]
        [⟨.listItemStart ⟨line.contentStart, line.contentStart + markerLen⟩,
          ⟨line.contentStart, line.contentStart + markerLen⟩⟩] := by
    intro hbounded
    apply Laid.delimiter rfl (fun _ => rfl) rfl (Nat.le_add_right _ _)
    exact ⟨⟨hbounded, hbounded⟩, rfl, hread.2⟩
  have hlaid := @laid_marked bytes line hcuts hlen hline _ .listItemEnd .listItem markerLen
    hread.1.1 hread.1.2 (val_lt_of_listMarker hread.2) hopen rfl rfl
  have hemitted := emitted_content hline henter hlaid
  simpa only [Blocks.listItem, Blocks.pushEmpty, Blocks.push, Blocks.emit, append_assoc,
    singleton_append, cons_append, nil_append] using hemitted

/-- The text before a fence. -/
lemma emitted_leadingText (h : Emitted bytes line.start st) (hlist : st.openList = none)
      {fenceStart : ℕ}
    (hle : line.contentStart ≤ fenceStart) (hfence : CharBoundary bytes fenceStart) :
    Emitted bytes fenceStart (st.leadingText bytes line fenceStart) ∧
    (st.leadingText bytes line fenceStart).openList = none := by
  rw [Blocks.leadingText]
  split
  case isTrue =>
    have htext := laid_paragraphText hcuts hlen hline h hlist hle hfence
    have hnone : (st.enterParagraph line).openList = none :=
      (openList_enterParagraph st line).trans hlist
    refine ⟨emitted_paragraph hnone ?_ rfl hfence, hnone⟩
    rw [← quoteDepth_enterParagraph st line] at htext
    exact htext
  case isFalse =>
    obtain rfl : line.contentStart = fenceStart := by omega
    exact ⟨h.skip (hline.laid_quotes (Nat.le_refl _)), hlist⟩

end

lemma emitted_codeBlock (hblocked : Blocked bytes lines) (hget : lines[index]? = some line)
      (hkind : line.kind = .fence fence)
    {closingIndex : ℕ} (hclosing : line.closingFence = some closingIndex)
    (h : Emitted bytes line.start st) :
    Emitted bytes (startOf bytes lines (closingIndex + 1))
      (st.codeBlock bytes lines index line fence closingIndex) := by
  have hline := hblocked.lineAt hget
  obtain ⟨hlt, ⟨closing, hclose, hbare, _⟩, hdeep⟩ := hblocked.closing hget hclosing
  have hclosingLt := (List.getElem?_eq_some_iff.mp hclose).1
  have hread := hline.kind
  rw [hkind] at hread
  have hfence : CharBoundary bytes fence.start :=
    (hcuts _ _ (fence_ticks hline hkind (by decide : 0 < 3)) (by decide)).1
  obtain ⟨hlist, hnone, _⟩ := h.closeList hline.start_boundary
  obtain ⟨hleading, _⟩ := emitted_leadingText hcuts hlen hline hlist hnone hread.1.1 hfence
  obtain ⟨hparagraph, _, _⟩ := hleading.closeParagraph hfence
  -- opening fence and its newline, the lines of the block, the closing line
  have hstart := (laid_codeBlockStart hcuts hline hkind).append (hline.laid_terminator _)
  rw [hblocked.next hget] at hstart
  have hcode := @laid_codeLines bytes lines hblocked.toLined line.quoteDepth
    (closingIndex - (index + 1)) (index + 1)
    (fun k codeLine hlow hhigh => hdeep k codeLine (by omega) (by omega)) (by omega)
  rw [Nat.add_sub_cancel' (by omega : index + 1 ≤ closingIndex)] at hcode
  have hend := laid_codeBlockEnd (hblocked.lineAt hclose) hbare
  have hstartOf : startOf bytes lines closingIndex = closing.start := startOf_of_getElem? hclose
  rw [hblocked.next hclose, ← hstartOf] at hend
  have hblock := hparagraph.emit (hstart.append ((hcode.frame [.codeBlock]).append hend))
  rw [Blocks.codeBlock, hclose]
  simpa only [Blocks.push, Blocks.emit, append_assoc, nil_append] using hblock

/-! ## The loop -/

/-- One round takes the loop to a later line. -/
lemma emitted_emitLine (hblocked : Blocked bytes lines) (hget : lines[index]? = some line)
      (h : Emitted bytes line.start st) :
    Emitted bytes (startOf bytes lines (st.emitLine bytes lines index line).2)
      (st.emitLine bytes lines index line).1 ∧
      index < (st.emitLine bytes lines index line).2 := by
  have hline := hblocked.lineAt hget
  have hquote := h.requote hline.start_boundary
  have hnext := hblocked.next hget
  have htext := emitted_textLine hcuts hlen hline hquote
  rw [hnext] at htext
  rw [Blocks.emitLine]
  split
  case isTrue hblank =>
    refine ⟨emitted_blankRun hblocked.toLined hget (of_decide_eq_true hblank) hquote, ?_⟩
    rw [Blocks.blankRun]
    omega
  case isFalse =>
    split
    case isTrue => exact ⟨htext, Nat.lt_succ_self index⟩
    case isFalse =>
      split
      case h_1 fence closingIndex hkind hclosing =>
        refine ⟨emitted_codeBlock hcuts hlen hblocked hget hkind hclosing hquote, ?_⟩
        exact Nat.lt_succ_of_lt (hblocked.closing hget hclosing).1
      case h_2 hkind =>
        rw [← hnext]
        exact ⟨emitted_headerLine hcuts hlen hline hkind hquote, Nat.lt_succ_self index⟩
      case h_3 kind markerLen hkind =>
        rw [← hnext]
        exact ⟨emitted_listItem hcuts hlen hline hkind hquote, Nat.lt_succ_self index⟩
      case h_4 => exact ⟨htext, Nat.lt_succ_self index⟩

/-- A run of the loop with enough fuel emits the whole source. -/
lemma emitted_emitLines (hblocked : Blocked bytes lines) (fuel : ℕ)
      (hfuel : lines.length ≤ index + fuel)
    (h : Emitted bytes (startOf bytes lines index) st) :
    Emitted bytes bytes.length (Blocks.emitLines bytes lines fuel index st) := by
  induction fuel generalizing index st with
  | zero =>
    rw [Nat.add_zero] at hfuel
    rw [startOf_of_length_le hfuel] at h
    exact h
  | succ fuel ih =>
    rw [Blocks.emitLines]
    split
    case h_1 hnone =>
      rw [startOf_of_length_le (List.getElem?_eq_none_iff.mp hnone)] at h
      exact h
    case h_2 line hget =>
      rw [startOf_of_getElem? hget] at h
      obtain ⟨hround, hlt⟩ := emitted_emitLine hcuts hlen hblocked hget h
      exact ih (by omega) hround

end Lines

/-! ## The whole source -/

lemma emitted_empty (bytes : Source) : Emitted bytes 0 Blocks.empty :=
  ⟨Laid.nil bytes 0 [], .inl rfl, by simp [Blocks.empty]⟩

/-- The events of a source lay it out and leave no scope open. -/
lemma laid_blocks {bytes : Source} (hcuts : AsciiCuts bytes) (hlen : bytes.length < 2 ^ 32) :
    Laid bytes 0 bytes.length [] [] (blocks bytes).out := by
  have hblocked := blocked_matchFences hcuts
  have hend : CharBoundary bytes bytes.length := .inr (.inl rfl)
  have hempty := emitted_empty bytes
  have hfirst := hblocked.first
  rw [← hfirst] at hempty
  have hrun := emitted_emitLines hcuts hlen hblocked (matchFences (scanLines bytes)).length
    (Nat.le_add_left _ 0) hempty
  obtain ⟨hboth, hclosed⟩ := hrun.closeBoth hend
  obtain ⟨hquote, hclosed'⟩ := hboth.changeQuoteDepth hclosed hend 0
  have hlaid := hquote.laid
  rw [hclosed'.scopes] at hlaid
  exact hlaid

lemma truncateSpan_eq {bytes : Source} {span : Span} (hlen : bytes.length < 2 ^ 32)
    (h : Bounded bytes span) : truncateSpan span = span := by
  have hstart := h.1.le
  have hstop := h.2.le
  rw [truncateSpan, u32_eq (by omega), u32_eq (by omega)]

/-- Offsets of a source below 4 GiB are not narrowed. -/
lemma truncate_eq {bytes : Source} {token : Token} (hlen : bytes.length < 2 ^ 32)
    (h : token.OnBoundaries bytes) : token.truncate = token := by
  obtain ⟨hrange, hkind⟩ := h
  obtain ⟨kind, range⟩ := token
  have hspan := truncateSpan_eq hlen hrange
  rw [Token.truncate, hspan]
  congr 1
  cases kind with
  | listItemStart marker => exact congrArg TokenKind.listItemStart (truncateSpan_eq hlen hkind)
  | codeBlockStart lang =>
    cases lang with
    | none => rfl
    | some span =>
      exact congrArg (fun span => TokenKind.codeBlockStart (some span))
        (truncateSpan_eq hlen (hkind span rfl))
  | _ => rfl

lemma tokenize_eq (source : List Char) (hlen : (utf8 source).length < 2 ^ 32) :
    tokenize source = (blocks (utf8 source)).out := by
  have hlaid := laid_blocks (asciiCuts_utf8 source) hlen
  rw [tokenize]
  nth_rewrite 2 [← map_id (blocks (utf8 source)).out]
  apply map_congr_left
  intro token htoken
  exact truncate_eq hlen (hlaid.sound token htoken).1

end Chatt.MessageFormat
