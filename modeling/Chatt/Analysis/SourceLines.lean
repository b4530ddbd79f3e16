import Chatt.Analysis.InlineTokens

/-!
# Scanned lines

What `scan_lines` says about a line holds of the bytes: its quote markers, its content, its
terminator, and the marker its kind stands for. `match_fences` adds a closing fence: a later
bare fence of the same depth, with no shallower line between.
-/

namespace Chatt.MessageFormat

open Lib List Option

variable {lines : List SourceLine} {pos : ℕ}

/-! ## Kinds of lines -/

/-- The bytes `[a, b)` are a content of this kind. -/
def LineKind.Reads (bytes : Source) (a b : ℕ) : LineKind → Prop
  | .blank => (between bytes a b).all isBlankByte
  | .fence opener =>
    (a ≤ opener.start ∧ opener.start + 3 ≤ b) ∧
      (∃ lang, lang.all isAsciiAlphanumeric ∧ between bytes opener.start b = ascii "```" ++ lang) ∧
      (∀ span ∈ opener.lang, span = ⟨opener.start + 3, b⟩) ∧
      (opener.isStandaloneBare = true → opener.start = a ∧ opener.start + 3 = b)
  | .header => a + 2 ≤ b ∧ between bytes a (a + 2) = ascii "# "
  | .listItem _ len =>
    (0 < len ∧ a + len ≤ b) ∧ (between bytes a (a + len) = ascii "- " ∨
      between bytes a (a + len) = ascii "* " ∨
      ∃ digits, digits ≠ [] ∧ digits.all isAsciiDigit ∧
      between bytes a (a + len) = digits ++ ascii ". ")
  | .text => True

section Kind

variable {bytes : Source} {a b : ℕ}

/-- The start of a part of the list. -/
lemma between_of_prefix {pattern : Source} (hne : pattern ≠ [])
      (h : pattern.isPrefixOf (between bytes a b) = true) :
    a + pattern.length ≤ b ∧ between bytes a (a + pattern.length) = pattern := by
  rw [List.isPrefixOf_iff_prefix] at h
  have hpos : 0 < pattern.length := length_pos_iff.mpr hne
  have hlen := h.length_le
  rw [length_between] at hlen
  refine ⟨by omega, between_eq_iff.mpr ?_⟩
  intro k hk
  have hget := List.prefix_iff_getElem?.mp h k hk
  rw [getElem?_between, if_pos (by omega)] at hget
  rw [hget]
  exact (getElem?_eq_getElem hk).symm

lemma reads_orderedMarker {len : ℕ} (hb : b ≤ bytes.length)
      (h : orderedMarkerLen (between bytes a b) = some len) :
    (0 < len ∧ a + len ≤ b) ∧ ∃ digits, digits ≠ [] ∧ digits.all isAsciiDigit ∧
    between bytes a (a + len) = digits ++ ascii ". " := by
  unfold orderedMarkerLen at h
  generalize hdigits : (between bytes a b).takeWhile isAsciiDigit = digits at h
  dsimp only at h
  split at h
  case isTrue => simp at h
  case isFalse hne =>
    split at h
    case isFalse => simp at h
    case isTrue hdot =>
      obtain rfl : digits.length + 2 = len := some.inj h
      have hpre : digits <+: between bytes a b := by
        rw [← hdigits]
        exact List.takeWhile_prefix isAsciiDigit
      have hspace := (List.getElem?_eq_some_iff.mp hdot.2).1
      rw [length_between] at hspace
      refine ⟨⟨Nat.succ_pos _, by omega⟩, digits, ?_, ?_, ?_⟩
      · exact fun hnil => hne (by rw [hnil]; rfl)
      · rw [List.all_eq_true]
        intro byte hbyte
        rw [← hdigits] at hbyte
        exact mem_takeWhile_imp hbyte
      · have hlen : (digits ++ ascii ". ").length = digits.length + 2 := by
          rw [length_append]
          rfl
        have hread := @between_eq_iff _ bytes (digits ++ ascii ". ") a
        rw [hlen] at hread
        apply hread.mpr
        intro k hk
        have hat := getElem?_between bytes a b k
        rw [if_pos (by omega)] at hat
        rw [← hat]
        by_cases hdigit : k < digits.length
        · rw [getElem?_append_left hdigit, List.prefix_iff_getElem?.mp hpre k hdigit]
          exact (getElem?_eq_getElem hdigit).symm
        rw [getElem?_append_right (Nat.le_of_not_lt hdigit)]
        obtain rfl | rfl : k = digits.length ∨ k = digits.length + 1 := by omega
        · rw [hdot.1, Nat.sub_self]
          rfl
        · rw [hdot.2, Nat.add_sub_cancel_left]
          rfl

lemma reads_fence {fence : Fence} (hb : b ≤ bytes.length) (h : fenceOpener bytes a b = some fence) :
    LineKind.Reads bytes a b (.fence fence) := by
  obtain ⟨start, hstart, hfound⟩ := exists_of_findSome?_eq_some h
  have hmem := mem_range'_1.mp hstart
  split at hfound
  case isFalse => simp at hfound
  case isTrue hfence =>
    simp only [isFence, decide_eq_true_eq] at hfence
    have hticks := hfence.1
    have hroom : start + 3 ≤ b := by omega
    have hsplit : between bytes start b = ascii "```" ++ between bytes (start + 3) b := by
      rw [← hticks]
      exact between_append bytes (Nat.le_add_right start 3) hroom
    split at hfound
    case isTrue hempty =>
      obtain rfl := some.inj hfound
      have hend : start + 3 = b := by
        have hlen := congrArg List.length hempty
        rw [length_between, length_nil] at hlen
        omega
      refine ⟨⟨hmem.1, hroom⟩, ⟨[], rfl, ?_⟩, by simp [Fence.lang], ?_⟩
      · rw [← hempty]
        exact hsplit
      · intro hstandalone
        simp only [Fence.isStandaloneBare, decide_eq_true_eq] at hstandalone
        exact ⟨hstandalone, hend⟩
    case isFalse =>
      split at hfound
      case isFalse => simp at hfound
      case isTrue hlang =>
        obtain rfl := some.inj hfound
        refine ⟨⟨hmem.1, hroom⟩, ⟨_, hlang, hsplit⟩, ?_, ?_⟩
        · intro span hspan
          exact (some.inj hspan).symm
        · simp [Fence.isStandaloneBare]

lemma reads_classifyLine (hb : b ≤ bytes.length) :
    LineKind.Reads bytes a b (classifyLine bytes a b) := by
  unfold classifyLine
  dsimp only
  split
  case isTrue hblank => exact hblank
  case isFalse =>
    split
    case h_1 fence hfence => exact reads_fence hb hfence
    case h_2 =>
      split
      case isTrue hheader => exact between_of_prefix (by decide) hheader
      case isFalse =>
        split
        case isTrue hitem =>
          rcases hitem with hitem | hitem
          · have hread := between_of_prefix (by decide) hitem
            exact ⟨⟨Nat.two_pos, hread.1⟩, .inl hread.2⟩
          · have hread := between_of_prefix (by decide) hitem
            exact ⟨⟨Nat.two_pos, hread.1⟩, .inr (.inl hread.2)⟩
        case isFalse =>
          split
          case h_1 len hlen =>
            have hread := reads_orderedMarker hb hlen
            exact ⟨hread.1, .inr (.inr hread.2)⟩
          case h_2 => trivial

end Kind

/-! ## Quote markers -/

section Quotes

variable {bytes : Source}

/-- The first marker at `pos`, and its end. -/
lemma quoteMarkers_first {stop : ℕ} (hmark : bytes[pos]? = some (chr '>'))
      (hstop : (if bytes[pos + 1]? = some (chr ' ') then pos + 2 else pos + 1) = stop) :
    (stop = pos + 1 ∧ between bytes pos stop = [chr '>']) ∨
    (stop = pos + 2 ∧ bytes[pos + 1]? = some (chr ' ') ∧
      between bytes pos stop = [chr '>', chr ' ']) := by
  split at hstop
  · rename_i hspace
    right
    refine ⟨hstop.symm, hspace, ?_⟩
    rw [← hstop, between_append bytes (Nat.le_succ pos) (Nat.le_succ (pos + 1)), between_one hmark,
      between_one hspace]
    rfl
  · left
    rw [← hstop]
    exact ⟨rfl, between_one hmark⟩

/-- What the table of quote markers says of each of its entries. -/
structure QuoteEnd (bytes : Source) (pos stop : ℕ) : Prop where
  lt : pos < stop
  markers : QuoteMarkers (between bytes pos stop)
  boundary : CharBoundary bytes stop
  last : bytes[stop - 1]? = some (chr '>') ∨ bytes[stop - 1]? = some (chr ' ')

lemma quoteEnd_first (hcuts : AsciiCuts bytes) {stop : ℕ} (hmark : bytes[pos]? = some (chr '>'))
    (hstop : (if bytes[pos + 1]? = some (chr ' ') then pos + 2 else pos + 1) = stop) :
    QuoteEnd bytes pos stop := by
  rcases quoteMarkers_first hmark hstop with ⟨rfl, hread⟩ | ⟨rfl, hspace, hread⟩
  · refine ⟨Nat.lt_succ_self pos, ?_, (hcuts pos _ hmark (by decide)).2, .inl hmark⟩
    rw [hread]
    exact .bare .nil
  · refine ⟨by omega, ?_, (hcuts (pos + 1) _ hspace (by decide)).2, .inr hspace⟩
    rw [hread]
    exact .spaced .nil

/-- A marker before a run of markers. -/
lemma QuoteEnd.after {middle stop : ℕ} (hmark : bytes[pos]? = some (chr '>'))
      (hmiddle : (if bytes[pos + 1]? = some (chr ' ') then pos + 2 else pos + 1) = middle)
    (h : QuoteEnd bytes middle stop) : QuoteEnd bytes pos stop := by
  have hlt := h.lt
  rcases quoteMarkers_first hmark hmiddle with ⟨heq, hread⟩ | ⟨heq, _, hread⟩
  · refine ⟨by omega, ?_, h.boundary, h.last⟩
    rw [between_append bytes (by omega : pos ≤ middle) hlt.le, hread]
    exact .bare h.markers
  · refine ⟨by omega, ?_, h.boundary, h.last⟩
    rw [between_append bytes (by omega : pos ≤ middle) hlt.le, hread]
    exact .spaced h.markers

lemma quoteEnd_of_mem (hcuts : AsciiCuts bytes) (fuel : ℕ) {stop : ℕ}
      (h : stop ∈ quoteEnds bytes fuel pos) :
    QuoteEnd bytes pos stop ∧ stop ≤ (quoteEnds bytes fuel pos).getLastD pos := by
  induction fuel generalizing pos stop with
  | zero => simp [quoteEnds] at h
  | succ fuel ih =>
    rw [quoteEnds] at h ⊢
    split at h
    case isFalse => simp at h
    case isTrue hmark =>
      rw [if_pos hmark]
      generalize hfirst : (if bytes[pos + 1]? = some (chr ' ') then pos + 2
        else pos + 1) = first at h ⊢
      rw [getLastD_cons]
      rcases mem_cons.mp h with rfl | h
      · refine ⟨quoteEnd_first hcuts hmark hfirst, ?_⟩
        -- the last entry is this one or a later one
        rcases eq_nil_or_concat' (quoteEnds bytes fuel stop) with hnil | ⟨rest, last, hlast⟩
        · rw [hnil]
          exact Nat.le_refl _
        rw [hlast, getLastD_concat]
        have hmem : last ∈ quoteEnds bytes fuel stop := by
          rw [hlast]
          simp
        exact (ih hmem).1.lt.le
      · exact ⟨(ih h).1.after hmark hfirst, (ih h).2⟩

end Quotes

/-! ## Lines -/

/-- The line is what it says of the bytes. -/
structure LineAt (bytes : Source) (line : SourceLine) : Prop where
  lineStart : LineStart bytes line.start
  progress : line.start < line.next
  quotes : ∀ depth ≤ line.quoteDepth, line.start ≤ line.contentAtDepth depth ∧
    line.contentAtDepth depth ≤ line.contentStart ∧
    QuoteMarkers (between bytes line.start (line.contentAtDepth depth)) ∧
    CharBoundary bytes (line.contentAtDepth depth)
  content : line.contentStart ≤ line.contentEnd ∧ line.contentEnd ≤ line.next
  terminator : Terminator bytes line.contentEnd line.next
  boundaries : CharBoundary bytes line.contentEnd ∧ CharBoundary bytes line.next
  kind : line.kind.Reads bytes line.contentStart line.contentEnd

namespace LineAt

variable {bytes : Source} {line : SourceLine}

lemma start_boundary (h : LineAt bytes line) : CharBoundary bytes line.start :=
  (h.quotes 0 (Nat.zero_le _)).2.2.2

lemma content_boundary (h : LineAt bytes line) : CharBoundary bytes line.contentStart :=
  (h.quotes line.quoteDepth (Nat.le_refl _)).2.2.2

lemma start_le (h : LineAt bytes line) : line.start ≤ line.contentStart :=
  (h.quotes line.quoteDepth (Nat.le_refl _)).1

/-- Only the last line ends without a terminator. -/
lemma contentEnd_lt (h : LineAt bytes line) (hnext : line.next < bytes.length) :
    line.contentEnd < line.next := by
  rcases Nat.lt_or_ge line.contentEnd line.next with hlt | hge
  · exact hlt
  have hempty : between bytes line.contentEnd line.next = [] := by
    rw [between, Nat.sub_eq_zero_of_le hge]
    rfl
  rcases h.terminator with hread | hread | ⟨hend, _⟩
  · rw [hempty] at hread
    exact absurd hread (by decide)
  · rw [hempty] at hread
    exact absurd hread (by decide)
  · omega

end LineAt

section Scan

variable {bytes : Source}

lemma contentStart_scanLine (pos : ℕ) :
    (scanLine bytes pos).contentStart = (quoteEnds bytes (bytes.length - pos) pos).getLastD
      pos := by
  generalize hends : quoteEnds bytes (bytes.length - pos) pos = ends
  have hline : (scanLine bytes pos).prefixEnds = ends := hends
  rw [SourceLine.contentStart, SourceLine.quoteDepth, hline, SourceLine.contentAtDepth, hline]
  rcases eq_nil_or_concat' ends with rfl | ⟨rest, last, rfl⟩
  · rfl
  · simp

/-- The depths of a scanned line address its quote markers. -/
lemma quotes_scanLine (hcuts : AsciiCuts bytes) (hpos : CharBoundary bytes pos) {depth : ℕ}
      (hdepth : depth ≤ (scanLine bytes pos).quoteDepth) :
    pos ≤ (scanLine bytes pos).contentAtDepth depth ∧
    (scanLine bytes pos).contentAtDepth depth ≤ (scanLine bytes pos).contentStart ∧
      QuoteMarkers (between bytes pos ((scanLine bytes pos).contentAtDepth depth)) ∧
      CharBoundary bytes ((scanLine bytes pos).contentAtDepth depth) := by
  rw [contentStart_scanLine]
  generalize hends : quoteEnds bytes (bytes.length - pos) pos = ends
  have hline : (scanLine bytes pos).prefixEnds = ends := hends
  have hmem : ∀ stop ∈ ends, QuoteEnd bytes pos stop ∧ stop ≤ ends.getLastD pos := by
    rw [← hends]
    exact fun stop hstop => quoteEnd_of_mem hcuts _ hstop
  rw [SourceLine.quoteDepth, hline] at hdepth
  rw [SourceLine.contentAtDepth, hline]
  split
  · have hstart : (scanLine bytes pos).start = pos := rfl
    rw [hstart, between_self]
    refine ⟨Nat.le_refl pos, ?_, .nil, hpos⟩
    rcases eq_nil_or_concat' ends with rfl | ⟨rest, last, rfl⟩
    · exact Nat.le_refl pos
    · rw [getLastD_concat]
      exact (hmem last (by simp)).1.lt.le
  · have hlt : depth - 1 < ends.length := by omega
    rw [getD_eq_getElem ends 0 hlt]
    have hquote := hmem _ (getElem_mem hlt)
    exact ⟨hquote.1.lt.le, hquote.2, hquote.1.markers, hquote.1.boundary⟩

/-- The byte before a content that starts after a marker is no carriage return. -/
lemma before_content (hcuts : AsciiCuts bytes)
      (hlt : pos < (quoteEnds bytes (bytes.length - pos) pos).getLastD pos) :
    bytes[(quoteEnds bytes (bytes.length - pos) pos).getLastD pos - 1]? ≠ some (chr '\r') := by
  generalize hends : quoteEnds bytes (bytes.length - pos) pos = ends at hlt
  rcases eq_nil_or_concat' ends with rfl | ⟨rest, last, rfl⟩
  · exact absurd hlt (Nat.lt_irrefl pos)
  rw [getLastD_concat]
  have hmem : last ∈ quoteEnds bytes (bytes.length - pos) pos := by
    rw [hends]
    simp
  rcases (quoteEnd_of_mem hcuts _ hmem).1.last with hlast | hlast
  · rw [hlast]
    decide
  · rw [hlast]
    decide

/-- Where the line at `pos` ends: before its newline, or at the end of the source. -/
def lineStop (bytes : Source) (pos : ℕ) : ℕ :=
  skipWhile (fun byte => byte != chr '\n') bytes (scanLine bytes pos).contentStart bytes.length

lemma lineStop_newline (h : lineStop bytes pos < bytes.length) :
    bytes[lineStop bytes pos]? = some (chr '\n') := by
  obtain ⟨byte, hbyte, hstop⟩ := skipWhile_stopped (Nat.le_refl _) h
  rw [bne_eq_false_iff_eq] at hstop
  rw [lineStop, hbyte, hstop]

lemma contentEnd_scanLine (pos : ℕ) :
    (scanLine bytes pos).contentEnd = if pos < lineStop bytes pos ∧
    bytes[lineStop bytes pos - 1]? = some (chr '\r') then lineStop bytes pos - 1
      else lineStop bytes pos := by
  rw [lineStop, contentStart_scanLine]
  rfl

lemma next_scanLine (pos : ℕ) :
    (scanLine bytes pos).next = if lineStop bytes pos < bytes.length then lineStop bytes pos + 1
    else lineStop bytes pos := by
  rw [lineStop, contentStart_scanLine]
  rfl

/-- A line's terminator is read off its last bytes. -/
lemma terminator_scanLine (hle : lineStop bytes pos ≤ bytes.length) :
    Terminator bytes (scanLine bytes pos).contentEnd (scanLine bytes pos).next := by
  rw [contentEnd_scanLine, next_scanLine, Terminator]
  split
  case isTrue hreturn =>
    obtain ⟨stop, hstop⟩ : ∃ stop, lineStop bytes pos = stop + 1 :=
      ⟨lineStop bytes pos - 1, by omega⟩
    rw [hstop, Nat.add_sub_cancel] at hreturn ⊢
    split
    case isTrue hlt =>
      have hnewline := lineStop_newline (hstop ▸ hlt)
      rw [hstop] at hnewline
      right
      left
      rw [between_append bytes (Nat.le_succ stop) (Nat.le_succ (stop + 1)), between_one hreturn.2,
        between_one hnewline]
      rfl
    case isFalse hge =>
      right
      right
      exact ⟨by omega, .inr (between_one hreturn.2)⟩
  case isFalse =>
    split
    case isTrue hlt =>
      left
      exact between_one (lineStop_newline hlt)
    case isFalse hge =>
      right
      right
      exact ⟨by omega, .inl (between_self bytes _)⟩

lemma boundaries_scanLine (hcuts : AsciiCuts bytes) (hle : lineStop bytes pos ≤ bytes.length) :
    CharBoundary bytes (scanLine bytes pos).contentEnd ∧
    CharBoundary bytes (scanLine bytes pos).next := by
  rw [contentEnd_scanLine, next_scanLine]
  constructor
  · split
    case isTrue hreturn => exact (hcuts _ _ hreturn.2 (by decide)).1
    case isFalse =>
      rcases Nat.lt_or_ge (lineStop bytes pos) bytes.length with hlt | hge
      · exact (hcuts _ _ (lineStop_newline hlt) (by decide)).1
      · exact .inr (.inl (by omega))
  · split
    case isTrue hlt => exact (hcuts _ _ (lineStop_newline hlt) (by decide)).2
    case isFalse hge => exact .inr (.inl (by omega))

lemma lineAt_scanLine (hcuts : AsciiCuts bytes) (hpos : CharBoundary bytes pos)
      (hlt : pos < bytes.length)
    (hstart : LineStart bytes pos) : LineAt bytes (scanLine bytes pos) := by
  have hquotes : ∀ depth ≤ (scanLine bytes pos).quoteDepth, _ := fun depth hdepth =>
      quotes_scanLine hcuts hpos hdepth
  have hcontent := hquotes _ (Nat.le_refl _)
  have hhigh : (scanLine bytes pos).contentStart ≤ bytes.length := hcontent.2.2.2.le
  have hfrom : (scanLine bytes pos).contentStart ≤ lineStop bytes pos := le_skipWhile _ _ _ _
  have hstop : lineStop bytes pos ≤ bytes.length := skipWhile_le _ _ hhigh
  have hend : (scanLine bytes pos).contentStart ≤ (scanLine bytes pos).contentEnd := by
    rw [contentEnd_scanLine]
    split
    case isTrue hreturn =>
      -- the carriage return is no part of the quote markers
      rcases Nat.eq_or_lt_of_le hfrom with heq | hbefore
      · rw [← heq] at hreturn
        rw [contentStart_scanLine] at hreturn
        exact absurd hreturn.2 (before_content hcuts hreturn.1)
      · omega
    case isFalse => exact hfrom
  refine ⟨hstart, ?_, hquotes, ⟨hend, ?_⟩, terminator_scanLine hstop,
    boundaries_scanLine hcuts hstop, ?_⟩
  · have hself : (scanLine bytes pos).start = pos := rfl
    rw [hself, next_scanLine]
    split
    · omega
    · omega
  · rw [contentEnd_scanLine, next_scanLine]
    split
    · split <;> omega
    · split <;> omega
  · have hkind : (scanLine bytes pos).kind = classifyLine bytes (scanLine bytes pos).contentStart
        (scanLine bytes pos).contentEnd := by
      rw [contentStart_scanLine]
      rfl
    rw [hkind]
    exact reads_classifyLine (boundaries_scanLine hcuts hstop).1.le

lemma lineStart_next (hlt : (scanLine bytes pos).next < bytes.length) :
    LineStart bytes (scanLine bytes pos).next := by
  rw [next_scanLine] at hlt ⊢
  split at hlt
  case isTrue hstop =>
    rw [if_pos hstop]
    exact .inr (lineStop_newline hstop)
  case isFalse hstop => exact absurd hlt hstop

end Scan

/-! ## The table of lines -/

/-- Where line `i` starts: past the last line, the end of the source. -/
def startOf (bytes : Source) (lines : List SourceLine) (i : ℕ) : ℕ :=
  match lines[i]? with
  | some line => line.start
  | none => bytes.length

/-- The lines follow one another through the whole source. -/
structure Lined (bytes : Source) (lines : List SourceLine) : Prop where
  first : startOf bytes lines 0 = 0
  lineAt : ∀ {i : ℕ} {line : SourceLine}, lines[i]? = some line → LineAt bytes line
  next : ∀ {i : ℕ} {line : SourceLine}, lines[i]? = some line →
    line.next = startOf bytes lines (i + 1)

variable {bytes : Source} {line : SourceLine} {i : ℕ}

lemma startOf_of_getElem? (h : lines[i]? = some line) : startOf bytes lines i = line.start := by
  rw [startOf, h]

lemma startOf_of_length_le (h : lines.length ≤ i) : startOf bytes lines i = bytes.length := by
  rw [startOf, getElem?_eq_none h]

/-- With enough fuel the scan goes through the whole source from `pos`. -/
lemma lined_scanLinesFrom (hcuts : AsciiCuts bytes) (fuel : ℕ) (hfuel : bytes.length ≤ pos + fuel)
    (hpos : CharBoundary bytes pos) (hstart : pos < bytes.length → LineStart bytes pos) :
    startOf bytes (scanLinesFrom bytes fuel pos) 0 = pos ∧
      (∀ i line, (scanLinesFrom bytes fuel pos)[i]? = some line → LineAt bytes line ∧
        line.next = startOf bytes (scanLinesFrom bytes fuel pos) (i + 1) ∧
        line.closingFence = none) := by
  induction fuel generalizing pos with
  | zero =>
    have heq : bytes.length = pos := by
      have hle := hpos.le
      omega
    exact ⟨heq, by simp [scanLinesFrom]⟩
  | succ fuel ih =>
    rw [scanLinesFrom]
    split
    case isFalse hge =>
      have heq : bytes.length = pos := by
        have hle := hpos.le
        omega
      exact ⟨heq, by simp⟩
    case isTrue hlt =>
      have hline := lineAt_scanLine hcuts hpos hlt (hstart hlt)
      have hprogress : pos < (scanLine bytes pos).next := hline.progress
      obtain ⟨hfirst, hrest⟩ := ih (by omega) hline.boundaries.2 lineStart_next
      refine ⟨rfl, ?_⟩
      intro i line hi
      cases i with
      | zero =>
        obtain rfl : scanLine bytes pos = line := by simpa using hi
        exact ⟨hline, hfirst.symm, rfl⟩
      | succ i => exact hrest i line hi

/-! ## Closing fences -/

/-- Line `j`, from line `i` on, is the nearest that closes a fence of this depth: a bare fence with
no shallower line before it. -/
structure ClosesFence (lines : List SourceLine) (i depth j : ℕ) : Prop where
  le : i ≤ j
  bare : ∃ line, lines[j]? = some line ∧ line.isStandaloneBare = true ∧ line.quoteDepth = depth
  before : ∀ (k : ℕ) (line : SourceLine), i ≤ k → k < j → lines[k]? = some line →
    depth ≤ line.quoteDepth ∧ ¬(line.isStandaloneBare = true ∧ line.quoteDepth = depth)

/-- The search that the reverse pass replaces. -/
def searchFence (depth : ℕ) : ℕ → List SourceLine → Option ℕ
  | _, [] => none
  | i, line :: rest =>
    if line.quoteDepth < depth then none
    else if line.isStandaloneBare = true ∧ line.quoteDepth = depth then some i
    else searchFence depth (i + 1) rest

lemma searchFence_eq_some {depth j : ℕ} {rest : List SourceLine} (h : lines.drop i = rest) :
    searchFence depth i rest = some j ↔ ClosesFence lines i depth j := by
  induction rest generalizing i with
  | nil =>
    refine iff_of_false nofun fun hcloses => ?_
    obtain ⟨line, hline, -⟩ := hcloses.bare
    have := (List.getElem?_eq_some_iff.mp hline).1
    have := drop_eq_nil_iff.mp h
    have := hcloses.le
    omega
  | cons line rest ih =>
    have hline : lines[i]? = some line := by
      rw [← Nat.add_zero i, ← getElem?_drop, h]
      rfl
    have hat : ∀ {other}, lines[i]? = some other → line = other := fun hother =>
        some.inj (hline.symm.trans hother)
    have hdrop : lines.drop (i + 1) = rest := by rw [← tail_drop, h, tail_cons]
    rw [searchFence]
    split_ifs with hshallow hbare
    · refine iff_of_false nofun fun hcloses => ?_
      rcases hcloses.le.eq_or_lt with rfl | hlt
      · obtain ⟨other, hother, -, rfl⟩ := hcloses.bare
        exact hshallow.ne (by rw [hat hother])
      · have := (hcloses.before i line le_rfl hlt hline).1
        omega
    · rw [some_inj]
      constructor
      · rintro rfl
        exact ⟨le_rfl, ⟨line, hline, hbare⟩, by omega⟩
      · intro hcloses
        exact hcloses.le.eq_or_lt.resolve_right fun hlt =>
          (hcloses.before i line le_rfl hlt hline).2 hbare
    · rw [ih hdrop]
      constructor
      · intro hcloses
        refine ⟨(Nat.le_succ i).trans hcloses.le, hcloses.bare, fun k other hk hlt hother => ?_⟩
        rcases hk.eq_or_lt with rfl | hk
        · rw [← hat hother]
          exact ⟨Nat.le_of_not_lt hshallow, hbare⟩
        · exact hcloses.before k other hk hlt hother
      · intro hcloses
        refine ⟨hcloses.le.lt_of_ne ?_, hcloses.bare, fun k other hk =>
          hcloses.before k other (Nat.le_of_lt hk)⟩
        rintro rfl
        obtain ⟨other, hother, hcloser⟩ := hcloses.bare
        exact hbare (hat hother ▸ hcloser)

lemma getElem?_resizeFences (nextFence : List (Option ℕ)) (len d : ℕ) :
    (resizeFences nextFence len)[d]?.getD none = if d < len then nextFence[d]?.getD none
    else none := by
  rw [resizeFences]
  split
  · rw [getElem?_take]
    split <;> rfl
  · rw [getElem?_append, getElem?_replicate]
    split_ifs <;> simp [*]
    omega

lemma length_resizeFences (nextFence : List (Option ℕ)) (len : ℕ) :
    (resizeFences nextFence len).length = len := by
  rw [resizeFences]
  split <;> simp <;> omega

/-- The table of the reverse pass holds what the search would find. -/
lemma getElem?_matchFencesFrom_fst (i : ℕ) (lines : List SourceLine) (d : ℕ) :
    (matchFencesFrom i lines).1[d]?.getD none = searchFence d i lines := by
  induction lines generalizing i with
  | nil => cases d <;> rfl
  | cons line rest ih =>
    have hresized := getElem?_resizeFences (matchFencesFrom (i + 1) rest).1 (line.quoteDepth + 1) d
    rw [matchFencesFrom, searchFence]
    by_cases hbare : line.isStandaloneBare = true
    · rw [if_pos hbare, getElem?_set, length_resizeFences]
      split_ifs <;> simp_all
    · rw [if_neg hbare, hresized]
      split_ifs <;> simp_all
      omega

lemma getElem?_matchFencesFrom (i k : ℕ) (lines : List SourceLine) :
    (matchFencesFrom i lines).2[k]? = lines[k]?.map fun line =>
      if line.isFenceLine then
        { line with closingFence :=
            searchFence line.quoteDepth (i + k + 1) (lines.drop (k + 1)) }
      else line := by
  induction lines generalizing i k with
  | nil => simp [matchFencesFrom]
  | cons line rest ih =>
    cases k with
    | zero => simp [matchFencesFrom, getElem?_resizeFences, getElem?_matchFencesFrom_fst]
    | succ k =>
      rw [matchFencesFrom, getElem?_cons_succ, getElem?_cons_succ, ih, drop_succ_cons,
        show i + 1 + k + 1 = i + (k + 1) + 1 by omega]

lemma length_matchFences (lines : List SourceLine) : (matchFences lines).length = lines.length := by
  rw [matchFences]
  generalize 0 = i
  induction lines generalizing i with
  | nil => rfl
  | cons line rest ih => exact congrArg (· + 1) (ih (i + 1))

lemma exists_matchFences (h : lines[i]? = some line) :
    ∃ closing, (matchFences lines)[i]? = some { line with closingFence := closing } ∧
      if line.isFenceLine = true then
        ∀ j, closing = some j ↔ ClosesFence lines (i + 1) line.quoteDepth j
      else closing = line.closingFence := by
  rw [matchFences, getElem?_matchFencesFrom, h, map_some, Nat.zero_add]
  split
  · exact ⟨_, rfl, fun j => searchFence_eq_some rfl⟩
  · exact ⟨_, rfl, rfl⟩

/-- The reverse pass gives each fence the nearest line that closes it, and none if there is none;
the rest of a line stays. -/
theorem matchFences_nearest (lines : List SourceLine) :
    (matchFences lines).length = lines.length ∧ ∀ i line, lines[i]? = some line →
      ∃ closing, (matchFences lines)[i]? = some { line with closingFence := closing } ∧
        if line.isFenceLine = true then
          ∀ j, closing = some j ↔ ClosesFence lines (i + 1) line.quoteDepth j
        else closing = line.closingFence :=
  ⟨length_matchFences lines, fun _ _ => exists_matchFences⟩

lemma exists_of_matchFences (h : (matchFences lines)[i]? = some line) :
    ∃ scanned, lines[i]? = some scanned ∧
    line = { scanned with closingFence := line.closingFence } ∧
      if scanned.isFenceLine = true then
        ∀ j, line.closingFence = some j ↔ ClosesFence lines (i + 1) scanned.quoteDepth j
      else line.closingFence = scanned.closingFence := by
  have hlt := (List.getElem?_eq_some_iff.mp h).1
  rw [length_matchFences] at hlt
  have hscanned := getElem?_eq_getElem hlt
  obtain ⟨closing, hclosing, hspec⟩ := exists_matchFences hscanned
  obtain rfl := some.inj (h.symm.trans hclosing)
  exact ⟨_, hscanned, rfl, hspec⟩

/-- What the block loop reads: lines through the whole source, each closing fence after its
opener at the same depth with no shallower line between. -/
structure Blocked (bytes : Source) (lines : List SourceLine) : Prop extends Lined bytes lines where
  closing : ∀ {i j : ℕ} {line : SourceLine}, lines[i]? = some line → line.closingFence = some j →
    i < j ∧ (∃ closing, lines[j]? = some closing ∧ closing.isStandaloneBare = true ∧
    closing.quoteDepth = line.quoteDepth) ∧
    ∀ (k : ℕ) (between : SourceLine), i < k → k < j → lines[k]? = some between →
    line.quoteDepth ≤ between.quoteDepth

lemma startOf_matchFences (bytes : Source) (lines : List SourceLine) (i : ℕ) :
    startOf bytes (matchFences lines) i = startOf bytes lines i := by
  rcases eq_none_or_eq_some lines[i]? with hnone | ⟨scanned, hscanned⟩
  · have hlen := List.getElem?_eq_none_iff.mp hnone
    rw [startOf_of_length_le hlen, startOf_of_length_le]
    rw [length_matchFences]
    exact hlen
  · obtain ⟨closing, hclosing, -⟩ := exists_matchFences hscanned
    rw [startOf_of_getElem? hscanned, startOf_of_getElem? hclosing]

lemma blocked_matchFences (hcuts : AsciiCuts bytes) :
    Blocked bytes (matchFences (scanLines bytes)) := by
  obtain ⟨hfirst, hlines⟩ := lined_scanLinesFrom hcuts bytes.length
    (by omega : bytes.length ≤ 0 + bytes.length) (.inl rfl) (fun _ => .inl rfl)
  have hat : ∀ {i : ℕ} {line : SourceLine}, (matchFences (scanLines bytes))[i]? = some line →
      LineAt bytes line ∧ line.next = startOf bytes (scanLines bytes) (i + 1) := by
    intro i line hi
    obtain ⟨scanned, hscanned, heq, -⟩ := exists_of_matchFences hi
    obtain ⟨hline, hnext, _⟩ := hlines i scanned hscanned
    rw [heq]
    exact ⟨{ hline with }, hnext⟩
  refine ⟨⟨?_, ?_, ?_⟩, ?_⟩
  · rw [startOf_matchFences]
    exact hfirst
  · exact fun hi => (hat hi).1
  · intro i line hi
    rw [startOf_matchFences]
    exact (hat hi).2
  intro i j line hi hclosing
  obtain ⟨scanned, hscanned, heq, hspec⟩ := exists_of_matchFences hi
  split_ifs at hspec with hfence
  · have hcloses := (hspec j).mp hclosing
    rw [show line.quoteDepth = scanned.quoteDepth by rw [heq]; rfl]
    refine ⟨hcloses.le, ?_, ?_⟩
    · obtain ⟨bare, hbare, hstandalone, hsame⟩ := hcloses.bare
      obtain ⟨closing, hget, -⟩ := exists_matchFences hbare
      exact ⟨_, hget, hstandalone, hsame⟩
    · intro k other hik hkj hother
      obtain ⟨scanned', hscanned', heq', -⟩ := exists_of_matchFences hother
      rw [heq']
      exact (hcloses.before k scanned' hik hkj hscanned').1
  · rw [hspec, (hlines i scanned hscanned).2.2] at hclosing
    cases hclosing

end Chatt.MessageFormat
