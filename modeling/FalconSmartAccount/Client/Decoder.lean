import Mathlib

/-!
Decoders that read one symbol after the other and may fail: what it means that one does what another
does on a different representation of the input, and what a decoder of a code accepts.
-/

namespace Decoder

variable {ε α σ τ β : Type}

/-- `n` symbols, the first of which is number `u`. -/
def many (read : Nat → σ → Except ε (σ × α)) : Nat → Nat → σ → Except ε (σ × List α)
  | 0, _, s => .ok (s, [])
  | n + 1, u, s => do
    let (s, x) ← read u s
    let (s, xs) ← many read n (u + 1) s
    return (s, x :: xs)

/-! ## Simulation -/

/-- Both fail in the same way, or both return the same and leave related inputs. -/
inductive Simulates (R : σ → τ → Prop) : Except ε (σ × α) → Except ε (τ × α) → Prop
  | ok {s : σ} {t : τ} (x : α) : R s t → Simulates R (.ok (s, x)) (.ok (t, x))
  | error (e : ε) : Simulates R (.error e) (.error e)

namespace Simulates

variable {R : σ → τ → Prop}

theorem bind {γ : Type} {x : Except ε (σ × α)} {y : Except ε (τ × α)}
    {f : σ × α → Except ε (σ × γ)} {g : τ × α → Except ε (τ × γ)}
    (h : Simulates R x y) (hnext : ∀ s t a, R s t → Simulates R (f (s, a)) (g (t, a)))
    : Simulates R (x >>= f) (y >>= g) := by
  cases h with
  | ok a hst =>
    apply hnext
    apply hst
  | error e => apply Simulates.error

theorem many {read : Nat → σ → Except ε (σ × α)} {read' : Nat → τ → Except ε (τ × α)}
    (hread : ∀ u s t, R s t → Simulates R (read u s) (read' u t)) {n u : Nat} {s : σ} {t : τ}
    (h : R s t)
    : Simulates R (many read n u s) (many read' n u t) := by
  induction n generalizing u s t with
  | zero =>
    apply Simulates.ok
    apply h
  | succ n ih =>
    apply Simulates.bind
    . apply hread
      apply h
    . intro s t x hst
      apply Simulates.bind
      . apply ih
        apply hst
      . intro s t xs hst
        apply Simulates.ok
        apply hst

theorem map_snd {x : Except ε (σ × α)} {y : Except ε (τ × α)} (h : Simulates R x y)
    : x.map Prod.snd = y.map Prod.snd := by
  cases h with
  | ok a hst => rfl
  | error e => rfl

end Simulates

/-! ## Codes -/

/-- `read` returns a symbol exactly if its codeword comes next. -/
structure Decodes (codeword : α → List β) (valid : α → Prop)
    (read : Nat → List β → Except ε (List β × α)) : Prop where
  ok_iff : ∀ u l rest x, read u l = .ok (rest, x) ↔ valid x ∧ l = codeword x ++ rest

namespace Decodes

variable {codeword : α → List β} {valid : α → Prop} {read : Nat → List β → Except ε (List β × α)}
variable {n u : Nat} {l rest : List β} {x : α} {xs ys : List α}

theorem read_codeword (h : Decodes codeword valid read) (hx : valid x)
    : read u (codeword x ++ rest) = .ok (rest, x) := by
  apply (h.ok_iff _ _ _ _).mpr
  exact ⟨hx, rfl⟩

theorem many_codewords (h : Decodes codeword valid read) (hxs : ∀ x ∈ xs, valid x)
    : many read xs.length u (xs.flatMap codeword ++ rest) = .ok (rest, xs) := by
  induction xs generalizing u with
  | nil => rfl
  | cons x xs ih =>
    rw [List.forall_mem_cons] at hxs
    rw [List.length_cons]
    unfold many
    rw [List.flatMap_cons]
    rw [List.append_assoc]
    rw [h.read_codeword hxs.1]
    simp only [bind, Except.bind]
    rw [ih hxs.2]
    rfl

theorem many_ok_iff (h : Decodes codeword valid read)
    : many read n u l = .ok (rest, xs)
        ↔ xs.length = n ∧ (∀ x ∈ xs, valid x) ∧ l = xs.flatMap codeword ++ rest := by
  constructor
  . intro hok
    induction n generalizing u l xs with
    | zero =>
      cases hok
      simp
    | succ n ih =>
      unfold many at hok
      cases hread : read u l with
      | error e =>
        rw [hread] at hok
        cases hok
      | ok first =>
        obtain ⟨l', x⟩ := first
        rw [hread] at hok
        simp only [bind, Except.bind] at hok
        cases htail : many read n (u + 1) l' with
        | error e =>
          rw [htail] at hok
          cases hok
        | ok tail =>
          rw [htail] at hok
          cases hok
          obtain ⟨hx, rfl⟩ := (h.ok_iff _ _ _ _).mp hread
          obtain ⟨hlength, hvalid, rfl⟩ := ih htail
          rw [List.forall_mem_cons]
          simp [hlength, hx]
          apply hvalid
  . rintro ⟨rfl, hvalid, rfl⟩
    apply h.many_codewords
    apply hvalid

/-- A failure is that of the first symbol that cannot be read. -/
theorem many_error_iff (h : Decodes codeword valid read) {e : ε}
    : many read n u l = .error e
        ↔ ∃ (xs : List α) (rest : List β), xs.length < n ∧ (∀ x ∈ xs, valid x) ∧ l = xs.flatMap codeword ++ rest
          ∧ read (u + xs.length) rest = .error e := by
  constructor
  . intro herror
    induction n generalizing u l with
    | zero => cases herror
    | succ n ih =>
      unfold many at herror
      cases hread : read u l with
      | error e' =>
        rw [hread] at herror
        cases herror
        refine ⟨[], l, Nat.succ_pos n, ?_, rfl, hread⟩
        simp
      | ok first =>
        obtain ⟨l', x⟩ := first
        rw [hread] at herror
        simp only [bind, Except.bind] at herror
        cases htail : many read n (u + 1) l' with
        | ok tail =>
          rw [htail] at herror
          cases herror
        | error e' =>
          rw [htail] at herror
          cases herror
          obtain ⟨hx, rfl⟩ := (h.ok_iff _ _ _ _).mp hread
          obtain ⟨xs, rest, hlt, hvalid, rfl, hfail⟩ := ih htail
          refine ⟨x :: xs, rest, Nat.succ_lt_succ hlt, ?_, ?_, ?_⟩
          . rw [List.forall_mem_cons]
            exact ⟨hx, hvalid⟩
          . simp
          . rw [← hfail]
            congr 1
            rw [List.length_cons]
            omega
  . rintro ⟨xs, rest, hlt, hvalid, rfl, hfail⟩
    induction xs generalizing n u with
    | nil =>
      cases n with
      | zero => cases hlt
      | succ n =>
        unfold many
        simp only [List.length_nil, Nat.add_zero] at hfail
        rw [List.flatMap_nil]
        rw [List.nil_append]
        rw [hfail]
        rfl
    | cons x xs ih =>
      cases n with
      | zero => cases hlt
      | succ n =>
        rw [List.forall_mem_cons] at hvalid
        rw [List.length_cons] at hfail hlt
        have htail := ih (n := n) (u := u + 1) (Nat.lt_of_succ_lt_succ hlt) hvalid.2
          (by rw [← hfail]; congr 1; omega)
        unfold many
        rw [List.flatMap_cons]
        rw [List.append_assoc]
        rw [h.read_codeword hvalid.1]
        simp only [bind, Except.bind]
        rw [htail]

end Decodes

end Decoder
