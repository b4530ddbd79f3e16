import Chatt.Lib.Wire

/-!
# Checksummed frames

A log is a sequence of frames: the length of a body in four bytes, its checksum in eight, and
the body.  `scan` reads frames as long as they are complete; a torn frame at the end is left.
-/

namespace Chatt.Lib

open List

variable {σ ε : Type} (checksum : List (Fin 256) → ℕ)

def frame (body : List (Fin 256)) : List (Fin 256) :=
  leBytes 4 body.length ++ leBytes 8 (checksum body) ++ body

def frames (bodies : List (List (Fin 256))) : List (Fin 256) := bodies.flatMap (frame checksum)

/-- Reads frames and hands their bodies to `step`.  The answer is the last state, the number
of bytes read and the number of frames.  `fuel` bounds the number of frames. -/
def scan (corrupt : ε) (step : σ → List (Fin 256) → Except ε σ) :
    ℕ → List (Fin 256) → σ → Except ε (σ × ℕ × ℕ)
  | 0, _, s => .ok (s, 0, 0)
  | fuel + 1, bytes, s =>
    if bytes.length < 12 then .ok (s, 0, 0)
    else
      let len := leValue (bytes.take 4)
      if bytes.length < 12 + len then .ok (s, 0, 0)
      else
        let body := (bytes.drop 12).take len
        if checksum body ≠ leValue ((bytes.drop 4).take 8) then .error corrupt
        else
          match step s body with
          | .error error => .error error
          | .ok s =>
            match scan corrupt step fuel (bytes.drop (12 + len)) s with
            | .error error => .error error
            | .ok (s, valid, records) => .ok (s, 12 + len + valid, records + 1)

variable {checksum}

lemma length_frame (body : List (Fin 256)) : (frame checksum body).length = 12 + body.length := by
  simp only [frame, length_append, length_leBytes]

variable {step : σ → List (Fin 256) → Except ε σ} {corrupt : ε}

/-- The first frame is complete: its body goes to `step`. -/
lemma scan_frame {fuel : ℕ} {body rest : List (Fin 256)} {s : σ} (hlen : body.length < 2 ^ 32)
      (hsum : checksum body < 2 ^ 64) :
    scan checksum corrupt step (fuel + 1) (frame checksum body ++ rest) s = match step s body with
      | .error error => .error error
      | .ok t =>
        match scan checksum corrupt step fuel rest t with
        | .error error => .error error
        | .ok (u, valid, records) => .ok (u, 12 + body.length + valid, records + 1) := by
  have hlength : (frame checksum body ++ rest).length = 12 + body.length + rest.length := by
    rw [length_append, length_frame]
  have hhead : leValue ((frame checksum body ++ rest).take 4) = body.length := by
    rw [frame, append_assoc, append_assoc, take_left' (length_leBytes 4 body.length)]
    exact leValue_leBytes_of_lt hlen
  have hdrop : (frame checksum body ++ rest).drop 4 = leBytes 8 (checksum body) ++ (body ++ rest) :=
    by
    rw [frame, append_assoc, append_assoc, drop_left' (length_leBytes 4 body.length)]
  have hsumBytes : leValue (((frame checksum body ++ rest).drop 4).take 8) = checksum body := by
    rw [hdrop, take_left' (length_leBytes 8 (checksum body))]
    exact leValue_leBytes_of_lt hsum
  have hbody : (frame checksum body ++ rest).drop 12 = body ++ rest := by
    have : (frame checksum body ++ rest).drop 12 =
        ((frame checksum body ++ rest).drop 4).drop 8 := by
      rw [drop_drop]
    rw [this, hdrop, drop_left' (length_leBytes 8 (checksum body))]
  have hrest : (frame checksum body ++ rest).drop (12 + body.length) = rest := by
    rw [drop_left' (length_frame body)]
  rw [scan, if_neg (by omega)]
  simp only [hhead]
  rw [if_neg (by omega), hsumBytes, hbody, take_left' rfl, if_neg (not_not.mpr rfl), hrest]

variable (checksum) in
/-- The beginning of a frame that is not complete. -/
def Torn (bytes : List (Fin 256)) : Prop :=
  ∃ body n, body.length < 2 ^ 32 ∧ n < (frame checksum body).length ∧
    bytes = (frame checksum body).take n

lemma torn_nil : Torn checksum [] :=
  ⟨[], 0, by decide, by rw [length_frame]; exact Nat.succ_pos _, rfl⟩

lemma Torn.take {bytes : List (Fin 256)} (h : Torn checksum bytes) (n : ℕ) :
    Torn checksum (bytes.take n) := by
  obtain ⟨body, m, hlen, hm, rfl⟩ := h
  exact ⟨body, min n m, hlen, Nat.lt_of_le_of_lt (Nat.min_le_right n m) hm, take_take⟩

/-- A torn frame ends the scan. -/
lemma Torn.scan {bytes : List (Fin 256)} (h : Torn checksum bytes) (fuel : ℕ) (s : σ) :
    scan checksum corrupt step fuel bytes s = .ok (s, 0, 0) := by
  obtain ⟨body, n, hlen, hn, rfl⟩ := h
  cases fuel with
  | zero => rfl
  | succ fuel =>
    have hlength : ((frame checksum body).take n).length = n := by
      rw [length_take]
      omega
    rw [length_frame] at hn
    rw [Lib.scan]
    split_ifs with hshort
    · rfl
    have hhead : leValue (((frame checksum body).take n).take 4) = body.length := by
      rw [take_take, Nat.min_eq_left (by omega), frame, append_assoc,
        take_left' (length_leBytes 4 body.length)]
      exact leValue_leBytes_of_lt hlen
    simp only [hhead]
    rw [if_pos (by omega)]

/-- Steps over a list of bodies. -/
def stepAll (step : σ → List (Fin 256) → Except ε σ) : List (List (Fin 256)) → σ → Except ε σ
  | [], s => .ok s
  | body :: rest, s =>
    match step s body with
    | .error error => .error error
    | .ok s => stepAll step rest s

/-- Complete frames and what ends the scan. -/
lemma scan_frames {fuel : ℕ} {bodies : List (List (Fin 256))} {tail : List (Fin 256)} {s : σ}
      (hlen : ∀ body ∈ bodies, body.length < 2 ^ 32)
    (hsum : ∀ body, checksum body < 2 ^ 64) (hfuel : bodies.length ≤ fuel)
    (htail : ∀ fuel s, scan checksum corrupt step fuel tail s = .ok (s, 0, 0)) :
    scan checksum corrupt step fuel (frames checksum bodies ++ tail) s =
      (stepAll step bodies s).map fun t => (t, (frames checksum bodies).length, bodies.length) := by
  induction bodies generalizing fuel s with
  | nil => exact htail fuel s
  | cons body rest ih =>
    obtain ⟨fuel, rfl⟩ : ∃ n, fuel = n + 1 := ⟨fuel - 1, by
      rw [length_cons] at hfuel
      omega⟩
    have hrest := fun t => @ih fuel t (fun b hb => hlen b (mem_cons_of_mem _ hb))
      (Nat.le_of_succ_le_succ hfuel)
    unfold frames at hrest ⊢
    rw [flatMap_cons, append_assoc, scan_frame (hlen body mem_cons_self) (hsum body), stepAll]
    cases step s body with
    | error e => rfl
    | ok u =>
      simp only [hrest, length_append, length_frame, length_cons]
      cases stepAll step rest u with
      | error e | ok t => rfl

/-! ## Cutting a log -/

lemma frames_append (bodies bodies' : List (List (Fin 256))) :
    frames checksum (bodies ++ bodies') = frames checksum bodies ++ frames checksum bodies' :=
  flatMap_append

/-- A log that is cut anywhere ends in a torn frame; what was complete before the cut is still
there. -/
lemma take_frames {bodies : List (List (Fin 256))} {tail : List (Fin 256)}
      (hlen : ∀ body ∈ bodies, body.length < 2 ^ 32) (htail : Torn checksum tail) (n : ℕ) :
    ∃ k tail', k ≤ bodies.length ∧ Torn checksum tail' ∧
    (frames checksum bodies ++ tail).take n = frames checksum (bodies.take k) ++ tail' ∧
      ∀ m ≤ bodies.length, (frames checksum (bodies.take m)).length ≤ n → m ≤ k := by
  induction bodies generalizing n with
  | nil => exact ⟨0, tail.take n, Nat.le_refl 0, htail.take n, rfl, fun m hm _ => hm⟩
  | cons body rest ih =>
    have hcons : frames checksum (body :: rest) ++ tail = frame checksum body ++
        (frames checksum rest ++ tail) := by
      unfold frames
      rw [flatMap_cons, append_assoc]
    rw [hcons]
    by_cases hcut : n < (frame checksum body).length
    · refine ⟨0, (frame checksum body).take n, Nat.zero_le _,
        ⟨body, n, hlen body mem_cons_self, hcut, rfl⟩, ?_, ?_⟩
      · rw [take_append_of_le_length (Nat.le_of_lt hcut)]
        rfl
      intro m _ hm
      cases m with
      | zero => exact Nat.le_refl 0
      | succ m =>
        unfold frames at hm
        rw [take_succ_cons, flatMap_cons, length_append] at hm
        omega
    · obtain ⟨k, tail', hk, htail', heq, hkept⟩ :=
        ih (fun b hb => hlen b (mem_cons_of_mem _ hb)) (n - (frame checksum body).length)
      refine ⟨k + 1, tail', Nat.succ_le_succ hk, htail', ?_, ?_⟩
      · rw [take_append, take_of_length_le (by omega), heq, take_succ_cons]
        unfold frames
        rw [flatMap_cons, append_assoc]
      · intro m hm hle
        cases m with
        | zero => exact Nat.zero_le _
        | succ m =>
          unfold frames at hle
          rw [take_succ_cons, flatMap_cons, length_append] at hle
          have hle' : (frames checksum (rest.take m)).length ≤ n - (frame checksum body).length :=
            by
            unfold frames
            omega
          exact Nat.succ_le_succ (hkept m (Nat.le_of_succ_le_succ hm) hle')

end Chatt.Lib
