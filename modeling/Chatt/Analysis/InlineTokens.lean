import Chatt.Analysis.TokenLayout

/-!
# Inline tokens lay out their range

The three inline scanners cut a range at ASCII bytes only, so every cut is a character boundary,
and what lies between two cuts is emitted once. Each scanner is taken through its loop: links
and references inside plain text, emphasis around text, inline code around both.
-/

namespace Chatt.MessageFormat

open Lib List Option

/-- Both sides of an ASCII byte are character boundaries. -/
def AsciiCuts (bytes : Source) : Prop :=
  ∀ i byte, bytes[i]? = some byte → byte.val < 128 → CharBoundary bytes i ∧
    CharBoundary bytes (i + 1)

lemma asciiCuts_utf8 (source : List Char) : AsciiCuts (utf8 source) :=
  fun _ _ h hlt => charBoundary_of_ascii h hlt

/-! ## Bytes the scanners cut at -/

lemma val_lt_of_isRefChar {byte : Fin 256} (h : isRefChar byte = true) : byte.val < 128 := by
  revert byte
  decide +kernel

lemma val_lt_of_not_isUrlByte {byte : Fin 256} (h : isUrlByte byte = false) : byte.val < 128 := by
  revert byte
  decide +kernel

lemma val_lt_of_isTrailing {url : Source} {byte : Fin 256} (h : isTrailing url byte = true) :
    byte.val < 128 := by
  rw [isTrailing] at h
  split at h
  · rename_i hmem
    revert byte
    decide +kernel
  · split at h
    · rename_i heq
      rw [heq]
      decide
    · simp at h

lemma val_lt_of_lowercase_h {byte : Fin 256} (h : toAsciiLowercase byte = chr 'h') :
    byte.val < 128 := by
  revert byte
  decide +kernel

section Inline

variable {bytes : Source}

lemma getElem?_of_boundary {i stop : ℕ} (hstop : CharBoundary bytes stop) (hlt : i < stop) :
    ∃ byte, bytes[i]? = some byte :=
  ⟨_, getElem?_eq_getElem (Nat.lt_of_lt_of_le hlt hstop.le)⟩

/-! ## References in plain text -/

/-- The text that is left at the end of a range. -/
lemma laid_tail {cursor stop : ℕ} (hle : cursor ≤ stop) (hcursor : CharBoundary bytes cursor)
      (hstop : CharBoundary bytes stop) :
    Laid bytes cursor stop [] [] (if cursor < stop then [⟨.text, ⟨cursor, stop⟩⟩] else []) := by
  split
  · rename_i hlt
    exact Laid.leaf (.inl rfl) hlt hcursor hstop
  · have heq : cursor = stop := by omega
    rw [heq]
    exact Laid.nil bytes stop []

/-- A code's end is a boundary: the byte before it is a letter or a digit of the code. -/
lemma codeEnd_boundary (hcuts : AsciiCuts bytes) {codeStart stop : ℕ}
      (hstop : CharBoundary bytes stop) (hle : codeStart ≤ stop)
    (hlt : codeStart < skipWhile isRefChar bytes codeStart stop) :
    CharBoundary bytes (skipWhile isRefChar bytes codeStart stop) := by
  have hend := skipWhile_le isRefChar bytes hle
  obtain ⟨byte, hbyte⟩ := @getElem?_of_boundary bytes
    (skipWhile isRefChar bytes codeStart stop - 1) stop hstop (by omega)
  have href := @skipWhile_passed _ isRefChar bytes codeStart stop _ byte (by omega) (by omega) hbyte
  have hcut := (hcuts _ byte hbyte (val_lt_of_isRefChar href)).2
  rwa [Nat.sub_add_cancel (by omega)] at hcut

variable {start stop a pos : ℕ}

lemma laid_emitRefsFrom (hcuts : AsciiCuts bytes) (hstop : CharBoundary bytes stop) (fuel : ℕ)
      {cursor : ℕ} (hpos : cursor ≤ pos) (hle : cursor ≤ stop)
    (hcursor : CharBoundary bytes cursor) :
    Laid bytes cursor stop [] [] (emitRefsFrom bytes start stop fuel cursor pos) := by
  induction fuel generalizing cursor pos with
  | zero => exact laid_tail hle hcursor hstop
  | succ fuel ih =>
    rw [emitRefsFrom]
    split
    case isFalse => exact laid_tail hle hcursor hstop
    case isTrue hin =>
      split
      case isTrue => exact ih (by omega) hle hcursor
      case isFalse hat =>
        dsimp only
        split
        case isFalse => exact ih (by omega) hle hcursor
        case isTrue hfound =>
          simp only [not_or, not_not] at hat
          have hend := skipWhile_le isRefChar bytes (by omega : pos + 2 ≤ stop)
          have hmin : 5 ≤ skipWhile isRefChar bytes (pos + 2) stop - (pos + 2) := hfound.1.1
          have hbegin : CharBoundary bytes pos := (hcuts pos _ hat.1 (by decide)).1
          have hcode := codeEnd_boundary hcuts hstop (by omega : pos + 2 ≤ stop) (by omega)
          -- the text before the reference, the reference, and the rest from its end
          have hrest := ih (Nat.le_refl _) hend hcode
          have href : Laid bytes pos (skipWhile isRefChar bytes (pos + 2) stop) [] []
              [⟨.messageRef, ⟨pos, skipWhile isRefChar bytes (pos + 2) stop⟩⟩] :=
            Laid.leaf (.inr (.inr rfl)) (by omega) hbegin hcode
          exact (laid_tail hpos hcursor hbegin).append (href.append hrest)

lemma laid_emitTextWithRefs (hcuts : AsciiCuts bytes) (hle : start ≤ stop)
      (hstart : CharBoundary bytes start)
    (hstop : CharBoundary bytes stop) :
    Laid bytes start stop [] [] (emitTextWithRefs bytes start stop) :=
  laid_emitRefsFrom hcuts hstop _ (Nat.le_refl start) hle hstart

/-! ## Links -/

/-- Links of `bytes[start..]` that follow one another from `cursor` on, cut at boundaries. -/
def LinksIn (bytes : Source) (start stop : ℕ) : ℕ → List Span → Prop
  | cursor, [] => cursor ≤ stop
  | cursor, url :: rest =>
    (cursor ≤ start + url.start ∧ url.start < url.stop) ∧
      Bounded bytes ⟨start + url.start, start + url.stop⟩ ∧
      LinksIn bytes start stop (start + url.stop) rest

lemma LinksIn.mono {start stop cursor cursor' : ℕ} {urls : List Span} (hle : cursor ≤ cursor')
    (h : LinksIn bytes start stop cursor' urls) : LinksIn bytes start stop cursor urls := by
  cases urls with
  | nil => exact Nat.le_trans hle h
  | cons url rest => exact ⟨⟨Nat.le_trans hle h.1.1, h.1.2⟩, h.2⟩

lemma laid_emitUrls (hcuts : AsciiCuts bytes) (hstop : CharBoundary bytes stop) {cursor : ℕ}
      {urls : List Span} (h : LinksIn bytes start stop cursor urls)
    (hcursor : CharBoundary bytes cursor) :
    Laid bytes cursor stop [] [] (emitUrls bytes start stop cursor urls) := by
  induction urls generalizing cursor with
  | nil => exact laid_emitTextWithRefs hcuts h hcursor hstop
  | cons url rest ih =>
    obtain ⟨⟨hle, hlt⟩, hbounded, hrest⟩ := h
    have htext := laid_emitTextWithRefs hcuts hle hcursor hbounded.1
    have hurl : Laid bytes (start + url.start) (start + url.stop) [] []
        [⟨.url, ⟨start + url.start, start + url.stop⟩⟩] :=
      Laid.leaf (.inr (.inl rfl)) (by omega) hbounded.1 hbounded.2
    exact htext.append (hurl.append (ih hrest hbounded.2))

/-- Trimming leaves the end, or stops before punctuation. -/
lemma trimTrailing_cases (body : Source) (start stop : ℕ) :
    trimTrailing body start stop = stop ∨
    (trimTrailing body start stop < stop ∧ ∃ url,
      isTrailing url (body.getD (trimTrailing body start stop) 0) = true) := by
  induction stop with
  | zero => exact .inl rfl
  | succ last ih =>
    rw [trimTrailing]
    split
    · rename_i htrim
      rcases ih with heq | ⟨hlt, htrailing⟩
      · rw [heq]
        exact .inr ⟨Nat.lt_succ_self last, _, htrim.2⟩
      · exact .inr ⟨by omega, htrailing⟩
    · exact .inl rfl

/-- Where a scheme is found, the range starts with its `h` and has room for it. -/
lemma schemeAt_some {body : Source} {len : ℕ} (h : schemeAt body pos = some len) :
    pos + len ≤ body.length ∧ ∃ byte, body[pos]? = some byte ∧ byte.val < 128 := by
  rw [schemeAt, map_eq_some_iff] at h
  obtain ⟨scheme, hfind, hlen⟩ := h
  have hmem := mem_of_find?_eq_some hfind
  have hscheme := find?_some hfind
  simp only [decide_eq_true_eq] at hscheme
  obtain ⟨hroom, hread⟩ := hscheme
  have hhead : scheme[0]? = some (chr 'h') := by
    simp only [schemes, mem_cons, not_mem_nil, or_false] at hmem
    rcases hmem with rfl | rfl <;> rfl
  have hpos : 0 < scheme.length := (List.getElem?_eq_some_iff.mp hhead).1
  refine ⟨by omega, ?_⟩
  rw [← hread, getElem?_map, getElem?_between, if_pos (by omega), Nat.add_zero,
    map_eq_some_iff] at hhead
  obtain ⟨byte, hbyte, hlower⟩ := hhead
  exact ⟨byte, hbyte, val_lt_of_lowercase_h hlower⟩

/-- A link ends at the end of the body or before an ASCII byte. -/
lemma linkEnd_cases (body : Source) {i host : ℕ} (hle : host ≤ body.length) :
    trimTrailing body i (skipWhile isUrlByte body host body.length) = body.length ∨
      ∃ byte, body[trimTrailing body i (skipWhile isUrlByte body host body.length)]? = some byte ∧
      byte.val < 128 := by
  have hend := skipWhile_le isUrlByte body hle
  rcases trimTrailing_cases body i (skipWhile isUrlByte body host body.length) with
    heq | ⟨hlt, url, htrailing⟩
  · rw [heq]
    rcases Nat.eq_or_lt_of_le hend with hfull | hshort
    · exact .inl hfull
    · obtain ⟨byte, hbyte, hstop⟩ := skipWhile_stopped (Nat.le_refl _) hshort
      exact .inr ⟨byte, hbyte, val_lt_of_not_isUrlByte hstop⟩
  · have hin : trimTrailing body i (skipWhile isUrlByte body host body.length) < body.length := by
      omega
    have hget := getElem?_eq_getElem hin
    rw [getD_eq_getElem?_getD, hget] at htrailing
    exact .inr ⟨_, hget, val_lt_of_isTrailing htrailing⟩

lemma u32_eq {n : ℕ} (h : n < 2 ^ 32) : u32 n = n := Nat.mod_eq_of_lt h

lemma linksIn_findUrlsFrom (hcuts : AsciiCuts bytes) (hle : start ≤ stop)
      (hstop : CharBoundary bytes stop) (hlen : bytes.length < 2 ^ 32)
    (fuel : ℕ) {i : ℕ} (hi : i ≤ stop - start) :
    LinksIn bytes start stop (start + i) (findUrlsFrom (between bytes start stop) fuel i) := by
  have hbytes := hstop.le
  have hbody : (between bytes start stop).length = stop - start := by
    rw [length_between]
    omega
  -- an ASCII byte of the body is one of the source
  have hascii : ∀ j byte, (between bytes start stop)[j]? = some byte → byte.val < 128 →
      CharBoundary bytes (start + j) := by
    intro j byte hj hlt
    rw [getElem?_between] at hj
    split at hj
    · exact (hcuts _ byte hj hlt).1
    · simp at hj
  induction fuel generalizing i with
  | zero =>
    have hend : start + i ≤ stop := by omega
    exact hend
  | succ fuel ih =>
    rw [findUrlsFrom]
    split
    case isFalse =>
      have hend : start + i ≤ stop := by omega
      exact hend
    case isTrue =>
      split
      case h_1 =>
        rw [hbody] at *
        exact (ih (by omega)).mono (by omega)
      case h_2 schemeLen hscheme =>
        dsimp only
        obtain ⟨hroom, first, hfirst, hlt⟩ := schemeAt_some hscheme
        have htrim := linkEnd_cases (between bytes start stop) hroom (i := i)
        generalize hend : trimTrailing (between bytes start stop) i
          (skipWhile isUrlByte (between bytes start stop) (i + schemeLen)
            (between bytes start stop).length) = linkEnd at htrim ⊢
        have hbound : linkEnd ≤ stop - start ∧ CharBoundary bytes (start + linkEnd) := by
          rcases htrim with heq | ⟨byte, hbyte, hlow⟩
          · rw [heq, hbody, Nat.add_sub_cancel' hle]
            exact ⟨Nat.le_refl _, hstop⟩
          · have hin := (List.getElem?_eq_some_iff.mp hbyte).1
            exact ⟨by omega, hascii _ byte hbyte hlow⟩
        have hrest := ih (i := max linkEnd (i + schemeLen)) (by omega)
        split
        · rename_i hhost
          rw [u32_eq (by omega), u32_eq (by omega)]
          have hlink : i < linkEnd := by omega
          refine ⟨⟨Nat.le_refl _, hlink⟩, ⟨hascii i first hfirst hlt, hbound.2⟩, ?_⟩
          rw [Nat.max_eq_left (by omega)] at hrest ⊢
          exact hrest
        · exact hrest.mono (by omega)

lemma laid_emitTextWithUrls (hcuts : AsciiCuts bytes) (hlen : bytes.length < 2 ^ 32)
      (hle : start ≤ stop) (hstart : CharBoundary bytes start)
    (hstop : CharBoundary bytes stop) :
    Laid bytes start stop [] [] (emitTextWithUrls bytes start stop) := by
  rw [emitTextWithUrls]
  split
  · have heq : start = stop := by omega
    rw [heq]
    exact Laid.nil bytes stop []
  · apply laid_emitUrls hcuts hstop _ hstart
    exact linksIn_findUrlsFrom hcuts hle hstop hlen _ (Nat.zero_le _)

/-! ## Emphasis -/

/-- What a found emphasis is: two equal runs of `*` with a content between them. -/
structure IsEmphasis (bytes : Source) (cursor stop : ℕ) (span : EmphasisSpan) : Prop where
  opening : span.opening.stop = span.opening.start + span.kind.len
  content : span.content = ⟨span.opening.stop, span.close.start⟩
  close : span.close.stop = span.close.start + span.kind.len
  order : cursor ≤ span.opening.start ∧ span.opening.stop ≤ span.close.start ∧
    span.close.stop ≤ stop
  stars : ∀ i, span.opening.Holds i ∨ span.close.Holds i → bytes[i]? = some (chr '*')

/-- A marker is a run of its byte. -/
lemma exactMarker_stars {len : ℕ} {bounds : Span} {marker : Fin 256}
      (h : exactMarker bytes pos bounds marker len = true)
    (hstop : bounds.stop ≤ bytes.length) :
    pos + len ≤ bounds.stop ∧ ∀ i, pos ≤ i → i < pos + len → bytes[i]? = some marker := by
  simp only [exactMarker, decide_eq_true_eq] at h
  refine ⟨h.1, ?_⟩
  intro i hlow hhigh
  have hin : i < bytes.length := by omega
  have hget := getElem?_eq_getElem hin
  rw [h.2.1 _ (mem_between_iff.mpr ⟨i, hlow, hhigh, hget⟩)] at hget
  exact hget

lemma findEmphasisClose_some {stop : ℕ} {kind : EmphasisKind} {span : EmphasisSpan}
      (hstop : stop ≤ bytes.length)
    (hopen : ∀ i, pos ≤ i → i < pos + kind.len → bytes[i]? = some (chr '*'))
    (h : findEmphasisClose bytes pos stop kind = some span) :
    span.opening.start = pos ∧ IsEmphasis bytes pos stop span := by
  rw [findEmphasisClose, map_eq_some_iff] at h
  obtain ⟨close, hfind, hspan⟩ := h
  have htest := find?_some hfind
  have hmem := mem_range'_1.mp (mem_of_find?_eq_some hfind)
  rw [Bool.and_eq_true] at htest
  obtain ⟨hroom, hclose⟩ := exactMarker_stars htest.1 hstop
  subst hspan
  refine ⟨rfl, rfl, rfl, rfl, ⟨Nat.le_refl pos, hmem.1, hroom⟩, ?_⟩
  rintro i (hi | hi)
  · exact hopen i hi.1 hi.2
  · exact hclose i hi.1 hi.2

lemma emphasisAt_some {range : Span} {allowed : Bool} {kind : EmphasisKind} {span : EmphasisSpan}
      (hstop : range.stop ≤ bytes.length)
    (h : emphasisAt bytes range pos allowed kind = some span) :
    span.opening.start = pos ∧ IsEmphasis bytes pos range.stop span := by
  rw [emphasisAt] at h
  split at h
  · rename_i hmarker
    exact findEmphasisClose_some hstop (exactMarker_stars hmarker.2 hstop).2 h
  · simp at h

lemma findNextEmphasis_some {range : Span} {allowBold allowItalic : Bool} {span : EmphasisSpan}
      (hstop : range.stop ≤ bytes.length)
    (h : findNextEmphasis bytes range allowBold allowItalic = some span) :
    IsEmphasis bytes range.start range.stop span := by
  rw [findNextEmphasis] at h
  obtain ⟨pos, hpos, hfound⟩ := exists_of_findSome?_eq_some h
  have hlow := (mem_range'_1.mp hpos).1
  have hspan : span.opening.start = pos ∧ IsEmphasis bytes pos range.stop span := by
    rw [or_eq_some_iff, or_eq_some_iff] at hfound
    rcases hfound with hfound | ⟨_, hfound | ⟨_, hfound⟩⟩
    · exact emphasisAt_some hstop hfound
    · exact emphasisAt_some hstop hfound
    · exact emphasisAt_some hstop hfound
  have hem := hspan.2
  exact ⟨hem.opening, hem.content, hem.close, ⟨Nat.le_trans hlow hem.order.1, hem.order.2⟩,
    hem.stars⟩

/-- A run of `len` stars at `a`. -/
def Stars (bytes : Source) (a len : ℕ) : Prop :=
  between bytes a (a + len) = List.replicate len (chr '*') ∧ Bounded bytes ⟨a, a + len⟩

lemma Stars.bold (h : Stars bytes a 2) (scopes : List Scope) :
    Laid bytes a (a + 2) scopes (.bold :: scopes) [⟨.boldStart, ⟨a, a + 2⟩⟩] ∧
    Laid bytes a (a + 2) (.bold :: scopes) scopes [⟨.boldEnd, ⟨a, a + 2⟩⟩] := by
  constructor <;> apply Laid.delimiter rfl (fun _ => rfl) rfl (Nat.le_add_right a 2)
  all_goals exact ⟨⟨h.2, trivial⟩, h.1⟩

lemma Stars.italic (h : Stars bytes a 1) (scopes : List Scope) :
    Laid bytes a (a + 1) scopes (.italic :: scopes) [⟨.italicStart, ⟨a, a + 1⟩⟩] ∧
    Laid bytes a (a + 1) (.italic :: scopes) scopes [⟨.italicEnd, ⟨a, a + 1⟩⟩] := by
  constructor <;> apply Laid.delimiter rfl (fun _ => rfl) rfl (Nat.le_add_right a 1)
  all_goals exact ⟨⟨h.2, trivial⟩, h.1⟩

namespace IsEmphasis

variable {cursor stop : ℕ} {span : EmphasisSpan}

/-- A marker of `*`s inside one of the two runs, with its two boundaries. -/
lemma marker (h : IsEmphasis bytes cursor stop span) (hcuts : AsciiCuts bytes) {len : ℕ}
      (hpos : 0 < len)
    (hin : (span.opening.start ≤ a ∧ a + len ≤ span.opening.stop) ∨
      (span.close.start ≤ a ∧ a + len ≤ span.close.stop)) : Stars bytes a len := by
  have hstar : ∀ i, a ≤ i → i < a + len → bytes[i]? = some (chr '*') := by
    intro i hlow hhigh
    apply h.stars
    rcases hin with hin | hin
    · exact .inl ⟨by omega, by omega⟩
    · exact .inr ⟨by omega, by omega⟩
  refine ⟨?_, (hcuts a _ (hstar a (Nat.le_refl a) (by omega)) (by decide)).1, ?_⟩
  · have hread := @between_eq_iff _ bytes (List.replicate len (chr '*')) a
    rw [length_replicate] at hread
    apply hread.mpr
    intro k hk
    rw [hstar _ (by omega) (by omega), getElem?_replicate, if_pos hk]
  · have hcut := (hcuts _ _ (hstar (a + len - 1) (by omega) (by omega)) (by decide)).2
    rwa [Nat.sub_add_cancel (by omega)] at hcut

/-- The events around an emphasised content lay out both runs of `*`. -/
lemma laid_wrap (h : IsEmphasis bytes cursor stop span) (hcuts : AsciiCuts bytes)
      {inner : List Token}
    (hinner : Laid bytes span.content.start span.content.stop [] [] inner) :
    Laid bytes span.opening.start span.close.stop [] [] (wrapEmphasis span inner) := by
  obtain ⟨kind, ⟨o, o'⟩, content, ⟨p, p'⟩⟩ := span
  have hopening : o' = o + kind.len := h.opening
  have hcontent : content = ⟨o', p⟩ := h.content
  have hclosing : p' = p + kind.len := h.close
  subst hopening hcontent hclosing
  cases kind with
  | bold =>
    have ho : Stars bytes o 2 := h.marker hcuts Nat.two_pos (.inl ⟨Nat.le_refl _, Nat.le_refl _⟩)
    have hp : Stars bytes p 2 := h.marker hcuts Nat.two_pos (.inr ⟨Nat.le_refl _, Nat.le_refl _⟩)
    exact ((ho.bold []).1.append (hinner.frame [.bold])).append (hp.bold []).2
  | italic =>
    have ho : Stars bytes o 1 := h.marker hcuts Nat.one_pos (.inl ⟨Nat.le_refl _, Nat.le_refl _⟩)
    have hp : Stars bytes p 1 := h.marker hcuts Nat.one_pos (.inr ⟨Nat.le_refl _, Nat.le_refl _⟩)
    exact ((ho.italic []).1.append (hinner.frame [.italic])).append (hp.italic []).2
  | both =>
    -- the outer `*` is the italic marker, the two inner ones are the bold marker
    have ho : Stars bytes o 1 :=
      h.marker hcuts Nat.one_pos (.inl ⟨Nat.le_refl _, Nat.le_add_right _ 2⟩)
    have ho' : Stars bytes (o + 1) 2 :=
      h.marker hcuts Nat.two_pos (.inl ⟨Nat.le_add_right _ 1, Nat.le_refl _⟩)
    have hp : Stars bytes p 2 :=
      h.marker hcuts Nat.two_pos (.inr ⟨Nat.le_refl _, Nat.le_add_right _ 1⟩)
    have hp' : Stars bytes (p + 2) 1 :=
      h.marker hcuts Nat.one_pos (.inr ⟨Nat.le_add_right _ 2, Nat.le_refl _⟩)
    have hopen := (ho.italic []).1.append (ho'.bold [.italic]).1
    have hclose := (hp.bold [.italic]).2.append (hp'.italic []).2
    exact (hopen.append (hinner.frame [.bold, .italic])).append hclose

end IsEmphasis

lemma laid_parseEmphasis (hcuts : AsciiCuts bytes) (hlen : bytes.length < 2 ^ 32) (fuel : ℕ)
      {cursor stop : ℕ} (hle : cursor ≤ stop)
    (hcursor : CharBoundary bytes cursor) (hstop : CharBoundary bytes stop)
    (allowBold allowItalic : Bool) :
    Laid bytes cursor stop [] [] (parseEmphasis bytes fuel cursor stop allowBold allowItalic) := by
  induction fuel generalizing cursor stop allowBold allowItalic with
  | zero => exact laid_emitTextWithUrls hcuts hlen hle hcursor hstop
  | succ fuel ih =>
    rw [parseEmphasis]
    split
    case isFalse =>
      have heq : cursor = stop := by omega
      rw [heq]
      exact Laid.nil bytes stop []
    case isTrue =>
      split
      case h_1 => exact laid_emitTextWithUrls hcuts hlen hle hcursor hstop
      case h_2 span hspan =>
        have hem : IsEmphasis bytes cursor stop span := findNextEmphasis_some hstop.le hspan
        have hpos : 0 < span.kind.len := by cases span.kind <;> decide
        have hopen := (hem.marker hcuts hpos (.inl ⟨Nat.le_refl _, hem.opening.ge⟩)).2
        have hclose := (hem.marker hcuts hpos (.inr ⟨Nat.le_refl _, hem.close.ge⟩)).2
        rw [← hem.opening] at hopen
        rw [← hem.close] at hclose
        have hinner := ih hem.order.2.1 hopen.2 hclose.1 (span.kind.allowsBold allowBold)
          (span.kind.allowsItalic allowItalic)
        have hcontent := hem.content
        have htext := laid_emitTextWithUrls hcuts hlen hem.order.1 hcursor hopen.1
        have hwrap := hem.laid_wrap hcuts (by rw [hcontent]; exact hinner)
        rw [hcontent]
        exact (htext.append hwrap).append
          (ih hem.order.2.2 hclose.2 hstop allowBold allowItalic)

/-! ## Inline code -/

lemma lt_of_nonWsEdges {b : ℕ} (h : contentHasNonWsEdges bytes a b = true) : a < b := by
  by_contra hge
  have hempty : between bytes a b = utf8 [] := by
    rw [between, Nat.sub_eq_zero_of_le (Nat.le_of_not_lt hge)]
    rfl
  rw [contentHasNonWsEdges, hempty, fromUtf8_utf8] at h
  simp at h

lemma nextInlineCode_some {range : Span} {cursor close : ℕ}
      (h : nextInlineCode bytes range cursor = some (pos, close)) :
    (cursor ≤ pos ∧ pos + 1 < close ∧ close < range.stop) ∧ bytes[pos]? = some (0x60 : Fin 256) ∧
    bytes[close]? = some (0x60 : Fin 256) := by
  rw [nextInlineCode] at h
  obtain ⟨pos', hpos, hfound⟩ := exists_of_findSome?_eq_some h
  have hlow := mem_range'_1.mp hpos
  split at hfound
  case isFalse => simp at hfound
  case isTrue htick =>
    rw [map_eq_some_iff] at hfound
    obtain ⟨close', hfind, heq⟩ := hfound
    obtain ⟨rfl, rfl⟩ := Prod.mk.inj heq
    rw [findInlineCodeClose] at hfind
    have htest := find?_some hfind
    have hmem := mem_range'_1.mp (mem_of_find?_eq_some hfind)
    rw [Bool.and_eq_true] at htest
    have hlt := lt_of_nonWsEdges htest.2
    have hclose := htest.1
    simp only [isSingleBacktick, decide_eq_true_eq] at htick hclose
    exact ⟨⟨hlow.1, hlt, by omega⟩, htick.1, hclose.1⟩

lemma laid_inlineCode (hcuts : AsciiCuts bytes) {close : ℕ} (hlt : pos + 1 < close)
      (hpos : bytes[pos]? = some (0x60 : Fin 256))
    (hclose : bytes[close]? = some (0x60 : Fin 256)) :
    Laid bytes pos (close + 1) [] [] [⟨.inlineCode, ⟨pos + 1, close⟩⟩] := by
  apply Laid.single
  · exact ⟨rfl, Nat.le_succ pos, rfl, hlt.le, rfl, Nat.le_succ close, rfl⟩
  · simp [Token.parts, Part.fromToken]
  · exact fun outer => rfl
  · refine ⟨⟨⟨(hcuts pos _ hpos (by decide)).2, (hcuts close _ hclose (by decide)).1⟩, trivial⟩, ?_⟩
    exact ⟨Nat.succ_pos pos, hpos, hclose⟩
  · intro _
    exact ⟨Nat.le_succ pos, Nat.lt_succ_of_lt hlt, Nat.le_succ close⟩

lemma laid_tokenizeInlineFrom (hcuts : AsciiCuts bytes) (hlen : bytes.length < 2 ^ 32)
      {range : Span} (hstop : CharBoundary bytes range.stop) (fuel : ℕ) {cursor : ℕ}
    (hle : cursor ≤ range.stop) (hcursor : CharBoundary bytes cursor) :
    Laid bytes cursor range.stop [] [] (tokenizeInlineFrom bytes range fuel cursor) := by
  induction fuel generalizing cursor with
  | zero => exact laid_parseEmphasis hcuts hlen _ hle hcursor hstop true true
  | succ fuel ih =>
    rw [tokenizeInlineFrom]
    split
    case h_1 => exact laid_parseEmphasis hcuts hlen _ hle hcursor hstop true true
    case h_2 pos close hfound =>
      obtain ⟨⟨hpos, hlt, hclose⟩, htick, htick'⟩ := nextInlineCode_some hfound
      have htext := laid_parseEmphasis hcuts hlen (pos - cursor) hpos hcursor
        (hcuts pos _ htick (by decide)).1 true true
      have hrest := ih hclose (hcuts close _ htick' (by decide)).2
      exact htext.append ((laid_inlineCode hcuts hlt htick htick').append hrest)

/-- The inline tokens of a range lay it out. -/
lemma laid_tokenizeInline (hcuts : AsciiCuts bytes) (hlen : bytes.length < 2 ^ 32)
      (hle : start ≤ stop) (hstart : CharBoundary bytes start)
    (hstop : CharBoundary bytes stop) :
    Laid bytes start stop [] [] (tokenizeInline bytes start stop) :=
  @laid_tokenizeInlineFrom bytes hcuts hlen ⟨start, stop⟩ hstop _ start hle hstart

end Inline

end Chatt.MessageFormat
