import Chatt.Interface.TokenLayout

/-!
# Laying tokens end to end

`Laid bytes a b before after tokens` says that the tokens lay out the bytes from `a` to `b` and
take the open scopes from `before` to `after`. Such stretches are put end to end, and each kind
of token has its own.
-/

namespace Chatt.MessageFormat

open Lib List

structure Laid (bytes : Source) (a b : ℕ) (before after : List Scope) (tokens : List Token) :
    Prop where
  parts : ∃ parts : List Part, Tiles Part.range a b parts ∧
    parts.filter Part.fromToken = tokens.flatMap Token.parts ∧ ∀ part ∈ parts, part.Proper bytes
  nested : ∀ outer, closeScopes (before ++ outer) (marks tokens) = some (after ++ outer)
  sound : ∀ token ∈ tokens, token.OnBoundaries bytes ∧ token.ReadsMarker bytes
  leaves : (leafRanges tokens).Pairwise Span.Before
  within : ∀ range ∈ leafRanges tokens, a ≤ range.start ∧ range.start < b ∧ range.stop ≤ b

lemma leafRanges_append (tokens others : List Token) :
    leafRanges (tokens ++ others) = leafRanges tokens ++ leafRanges others := by
  simp [leafRanges]

lemma marks_append (tokens others : List Token) :
    marks (tokens ++ others) = marks tokens ++ marks others := by
  simp [marks]

namespace Laid

variable {bytes : Source} {a b c : ℕ} {before middle after : List Scope}
  {tokens others : List Token}

lemma le (h : Laid bytes a b before after tokens) : a ≤ b := by
  obtain ⟨parts, htiles, _⟩ := h.parts
  exact htiles.le

/-- Two stretches, end to end. -/
lemma append (h : Laid bytes a b before middle tokens) (h' : Laid bytes b c middle after others) :
    Laid bytes a c before after (tokens ++ others) := by
  have hab := h.le
  have hbc := h'.le
  refine ⟨?_, ?_, ?_, ?_, ?_⟩
  · obtain ⟨parts, htiles, hparts, hproper⟩ := h.parts
    obtain ⟨parts', htiles', hparts', hproper'⟩ := h'.parts
    refine ⟨parts ++ parts', htiles.append htiles', ?_, ?_⟩
    · rw [filter_append, flatMap_append, hparts, hparts']
    · exact forall_mem_append.mpr ⟨hproper, hproper'⟩
  · intro outer
    rw [marks_append, closeScopes_append (h.nested outer)]
    exact h'.nested outer
  · exact forall_mem_append.mpr ⟨h.sound, h'.sound⟩
  · rw [leafRanges_append, pairwise_append]
    refine ⟨h.leaves, h'.leaves, ?_⟩
    intro range hrange other hother
    have hin := h.within range hrange
    have hin' := h'.within other hother
    exact ⟨by omega, by omega⟩
  · rw [leafRanges_append]
    intro range hrange
    rcases mem_append.mp hrange with hrange | hrange
    · have hin := h.within range hrange
      omega
    · have hin := h'.within range hrange
      omega

/-- The scopes around a stretch stay as they are. -/
lemma frame (h : Laid bytes a b before after tokens) (outer : List Scope) :
    Laid bytes a b (before ++ outer) (after ++ outer) tokens := by
  refine ⟨h.parts, ?_, h.sound, h.leaves, h.within⟩
  intro rest
  rw [append_assoc, append_assoc]
  exact h.nested (outer ++ rest)

/-- Bytes that belong to no token. -/
lemma gap (role : Role) (hle : a ≤ b) (hrole : Part.fromToken ⟨role, ⟨a, b⟩⟩ = false)
    (hproper : Part.Proper bytes ⟨role, ⟨a, b⟩⟩) (scopes : List Scope) :
    Laid bytes a b scopes scopes [] := by
  refine ⟨⟨[⟨role, ⟨a, b⟩⟩], ⟨rfl, hle, rfl⟩, ?_, ?_⟩, ?_, ?_, ?_, ?_⟩
  · simp [hrole]
  · intro part hpart
    rw [mem_singleton.mp hpart]
    exact hproper
  · intro outer
    rfl
  · simp
  · exact List.Pairwise.nil
  · simp [leafRanges]

lemma nil (bytes : Source) (a : ℕ) (scopes : List Scope) : Laid bytes a a scopes scopes [] := by
  refine ⟨⟨[], rfl, rfl, by simp⟩, fun outer => rfl, by simp, List.Pairwise.nil, ?_⟩
  simp [leafRanges]

/-- A token whose parts run from `a` to `b`. -/
lemma single {token : Token} (hparts : Tiles Part.range a b token.parts)
      (hfrom : ∀ part ∈ token.parts, part.fromToken)
    (hmark : ∀ outer, closeScopes (before ++ outer) [token.kind.mark] = some (after ++ outer))
    (hsound : token.OnBoundaries bytes ∧ token.ReadsMarker bytes)
    (hleaf : token.kind.isLeaf = true → a ≤ token.range.start ∧ token.range.start < b ∧
      token.range.stop ≤ b) : Laid bytes a b before after [token] := by
  refine ⟨⟨token.parts, hparts, ?_, ?_⟩, ?_, ?_, ?_, ?_⟩
  · rw [filter_eq_self.mpr hfrom]
    simp
  · intro part hpart
    have hrole := hfrom part hpart
    simp only [Part.fromToken, decide_eq_true_eq] at hrole
    rcases hrole with hrole | hrole <;> simp [Part.Proper, hrole]
  · exact hmark
  · intro other hother
    rw [mem_singleton.mp hother]
    exact hsound
  · simp only [leafRanges, filter_cons, filter_nil]
    split <;> simp
  · simp only [leafRanges, filter_cons, filter_nil]
    split
    · rename_i hkind
      simpa using hleaf hkind
    · simp

/-- A leaf of inline text. -/
lemma leaf {kind : TokenKind} (hkind : kind = .text ∨ kind = .url ∨
      kind = .messageRef) (hlt : a < b)
    (ha : CharBoundary bytes a) (hb : CharBoundary bytes b) :
    Laid bytes a b [] [] [⟨kind, ⟨a, b⟩⟩] := by
  apply single
  · rcases hkind with rfl | rfl | rfl <;> exact ⟨rfl, hlt.le, rfl⟩
  · rcases hkind with rfl | rfl | rfl <;> simp [Token.parts, Part.fromToken]
  · rcases hkind with rfl | rfl | rfl <;> exact fun outer => rfl
  · rcases hkind with rfl | rfl | rfl <;> exact ⟨⟨⟨ha, hb⟩, trivial⟩, trivial⟩
  · exact fun _ => ⟨Nat.le_refl a, hlt, Nat.le_refl b⟩

/-- A delimiter that opens or closes a scope. -/
lemma delimiter {kind : TokenKind} (hmarks : kind.isLeaf = false)
      (hmark : ∀ outer, closeScopes (before ++ outer) [kind.mark] = some (after ++ outer))
    (hparts : Token.parts ⟨kind, ⟨a, b⟩⟩ = [⟨.delimiter, ⟨a, b⟩⟩]) (hle : a ≤ b)
    (hsound : Token.OnBoundaries bytes ⟨kind, ⟨a, b⟩⟩ ∧ Token.ReadsMarker bytes ⟨kind, ⟨a, b⟩⟩) :
    Laid bytes a b before after [⟨kind, ⟨a, b⟩⟩] := by
  apply single
  · rw [hparts]
    exact ⟨rfl, hle, rfl⟩
  · rw [hparts]
    simp [Part.fromToken]
  · exact hmark
  · exact hsound
  · intro hleaf
    cases hmarks.symm.trans hleaf

/-- An event that stands for no bytes. -/
lemma event {token : Token} (hparts : token.parts = [])
      (hmark : ∀ outer, closeScopes (before ++ outer) [token.kind.mark] = some (after ++ outer))
    (hsound : token.OnBoundaries bytes ∧ token.ReadsMarker bytes) (a : ℕ) :
    Laid bytes a a before after [token] := by
  apply single
  · rw [hparts]
    rfl
  · simp [hparts]
  · exact hmark
  · exact hsound
  · intro hleaf
    cases token with
    | mk kind range => cases kind <;> simp_all [Token.parts, TokenKind.isLeaf]

end Laid

end Chatt.MessageFormat
