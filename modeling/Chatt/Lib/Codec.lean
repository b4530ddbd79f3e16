import Chatt.Lib.Wire

/-!
# Byte codecs

A `Codec` decodes what it encodes.  A `StreamCodec` decodes from the front of a longer
buffer and so composes: pairs, alternatives, lists and records are built from the codecs of
their parts, and `StreamCodec.toCodec` closes a stream codec over whole buffers.
-/

namespace Chatt.Lib

variable {α β : Type}

/-- An encoding of `α` in byte strings, and a decoder that reads every encoding back. -/
structure Codec (α : Type) where
  encode : α → List (Fin 256)
  decode : List (Fin 256) → Except String α
  decode_encode : ∀ a, decode (encode a) = .ok a

/-- A codec whose decoder leaves the bytes after the value unread. -/
structure StreamCodec (α : Type) where
  put : α → List (Fin 256)
  take : List (Fin 256) → Option (α × List (Fin 256))
  take_put : ∀ a rest, take (put a ++ rest) = some (a, rest)

namespace StreamCodec

/-- The codec of the whole buffer. -/
def toCodec (c : StreamCodec α) : Codec α where
  encode := c.put
  decode bytes :=
    match c.take bytes with
    | some (a, _) => .ok a
    | none => .error "unexpected end of input"
  decode_encode a := by
    have h := c.take_put a []
    rw [List.append_nil] at h
    rw [h]

def byte : StreamCodec (Fin 256) where
  put b := [b]
  take
    | [] => none
    | b :: rest => some (b, rest)
  take_put _ _ := rfl

/-- A count as that many ones and a zero. -/
def putCount : ℕ → List (Fin 256)
  | 0 => [0]
  | n + 1 => 1 :: putCount n

def takeCount : List (Fin 256) → Option (ℕ × List (Fin 256))
  | [] => none
  | b :: rest =>
    if b = 0 then some (0, rest)
    else (takeCount rest).map fun r => (r.1 + 1, r.2)

lemma takeCount_putCount (n : ℕ) (rest : List (Fin 256)) :
    takeCount (putCount n ++ rest) = some (n, rest) := by
  induction n with
  | zero => simp [putCount, takeCount]
  | succ n ih => simp [putCount, takeCount, ih]

lemma length_putCount (n : ℕ) : (putCount n).length = n + 1 := by
  induction n with
  | zero => rfl
  | succ n ih => simp [putCount, ih]

/-- The number of bytes `n` takes. -/
def byteLength (n : ℕ) : ℕ := n.log2 / 8 + 1

lemma lt_pow_byteLength (n : ℕ) : n < 256 ^ byteLength n := by
  have hexp : n.log2 + 1 ≤ 8 * byteLength n := by
    unfold byteLength
    omega
  calc n < 2 ^ (n.log2 + 1) := Nat.lt_log2_self
    _ ≤ 2 ^ (8 * byteLength n) := Nat.pow_le_pow_right (by omega) hexp
    _ = 256 ^ byteLength n := by rw [Nat.pow_mul]

/-- A natural number: the number of its bytes, then the bytes. -/
def nat : StreamCodec ℕ where
  put n := putCount (byteLength n) ++ leBytes (byteLength n) n
  take bytes :=
    match takeCount bytes with
    | none => none
    | some (count, rest) => some (leValue (rest.take count), rest.drop count)
  take_put n rest := by
    rw [List.append_assoc, takeCount_putCount]
    simp only
    rw [List.take_left' (length_leBytes _ _), List.drop_left' (length_leBytes _ _),
      leValue_leBytes_of_lt (lt_pow_byteLength n)]

def pair (a : StreamCodec α) (b : StreamCodec β) : StreamCodec (α × β) where
  put v := a.put v.1 ++ b.put v.2
  take bytes :=
    match a.take bytes with
    | none => none
    | some (x, rest) => (b.take rest).map fun r => ((x, r.1), r.2)
  take_put v rest := by
    rw [List.append_assoc, a.take_put]
    simp [b.take_put]

/-- A codec through a representation that may be partial on the way back. -/
def via (c : StreamCodec α) (toRep : β → α) (ofRep : α → Option β)
    (ofRep_toRep : ∀ b, ofRep (toRep b) = some b) : StreamCodec β where
  put v := c.put (toRep v)
  take bytes :=
    match c.take bytes with
    | none => none
    | some (a, rest) => (ofRep a).map fun b => (b, rest)
  take_put v rest := by
    rw [c.take_put]
    simp [ofRep_toRep]

def either (a : StreamCodec α) (b : StreamCodec β) : StreamCodec (α ⊕ β) where
  put
    | .inl v => 0 :: a.put v
    | .inr v => 1 :: b.put v
  take
    | [] => none
    | tag :: rest =>
      if tag = 0 then (a.take rest).map fun r => (.inl r.1, r.2)
      else (b.take rest).map fun r => (.inr r.1, r.2)
  take_put v rest := by
    cases v with
    | inl v => simp [a.take_put]
    | inr v => simp [b.take_put]

def putAll (c : StreamCodec α) : List α → List (Fin 256)
  | [] => []
  | a :: rest => c.put a ++ putAll c rest

def takeAll (c : StreamCodec α) : ℕ → List (Fin 256) → Option (List α × List (Fin 256))
  | 0, bytes => some ([], bytes)
  | n + 1, bytes =>
    match c.take bytes with
    | none => none
    | some (a, rest) => (takeAll c n rest).map fun r => (a :: r.1, r.2)

lemma takeAll_putAll (c : StreamCodec α) (l : List α) (rest : List (Fin 256)) :
    takeAll c l.length (putAll c l ++ rest) = some (l, rest) := by
  induction l with
  | nil => rfl
  | cons a l ih => simp [putAll, takeAll, c.take_put, ih]

/-- A list behind its length. -/
def list (c : StreamCodec α) : StreamCodec (List α) where
  put l := putCount l.length ++ putAll c l
  take bytes :=
    match takeCount bytes with
    | none => none
    | some (n, rest) => takeAll c n rest
  take_put l rest := by
    rw [List.append_assoc, takeCount_putCount]
    exact takeAll_putAll c l rest

def option (c : StreamCodec α) : StreamCodec (Option α) :=
  (list c).via Option.toList (fun l => some l.head?) (by rintro (_ | a) <;> rfl)

/-- A list of known length. -/
def vector (c : StreamCodec α) (n : ℕ) : StreamCodec {l : List α // l.length = n} :=
  (list c).via (fun v => v.1) (fun l => if h : l.length = n then some ⟨l, h⟩ else none)
    (fun v => by simp [v.2])

def string : StreamCodec String :=
  (list nat).via (fun s => s.toList.map Char.toNat)
    (fun l => some (String.ofList (l.map Char.ofNat))) (fun s => by simp [Function.comp_def])

def bool : StreamCodec Bool :=
  nat.via (fun b => if b then 1 else 0) (fun n => some (n ≠ 0)) (by rintro (_ | _) <;> rfl)

end StreamCodec

end Chatt.Lib
