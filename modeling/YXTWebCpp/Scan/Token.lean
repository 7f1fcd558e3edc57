import YXTWebCpp.Scan.Triple

/-!
# Tokens in registers

The texts that a scanner hands to its callbacks are tokens: a register is pointed at the first byte
of a token, and behind its last byte an action reads the register.  These are the triples for it.

* `Always` : the state and the memory, wherever the scan is.
* `Behind` : a token has just been read, and a register points at its beginning; `passes_point`,
  `passes_behind`, `passes_store` : its rules.
* `Registers`, `Named`, `InField` : a field `name: value`, with one register for the beginning of
  the name, one for its length and one for the beginning of the value; `passes_name`,
  `passes_mark`, `passes_inField`, `passes_field`, `passes_field_empty` : its rules.
-/

namespace YXTWebCpp

namespace Scan

namespace Machine

variable {Q B A σ : Type*}

/-- The state and the memory, wherever the scan is. -/
def Always (I : Q → σ → Prop) : Assertion Q B σ := fun q _ s => I q s

/-- Behind the token `w`, at whose beginning the register points. -/
def Behind (I : Q → σ → Prop) (reg : σ → ℕ) (w : List B) : Assertion Q B σ :=
  fun q pre s => I q s ∧ ∃ p₀, pre = p₀ ++ w ∧ reg s = p₀.length

variable {M : Machine Q B A} {act : List B → ℕ → A → σ → σ} {I I' : Q → σ → Prop}
  {reg : σ → ℕ} {b : B} {w xs : List B}

/-! ### One token -/

/-- The first byte of a token. -/
theorem passes_point (h : ∀ q s, I q s → ∃ as q', M.move q b = .go as q' ∧ ∀ buf p,
    I' q' (runActs (act buf) p as s) ∧ reg (runActs (act buf) p as s) = p) :
    M.Passes act (Always I) [b] (Behind I' reg [b]) := by
  refine passes_one fun q pre ys s hs => ?_
  obtain ⟨as, q', hm, hact⟩ := h q s hs
  exact ⟨as, q', hm, (hact _ _).1, pre, rfl, (hact _ _).2⟩

/-- More bytes of a token. -/
theorem passes_behind (h : ∀ q s, I q s → ∃ q', M.silent xs q = some q' ∧ I' q' s) :
    M.Passes act (Behind I reg w) xs (Behind I' reg (w ++ xs)) := by
  refine passes_silent fun q pre s hs => ?_
  obtain ⟨hI, p₀, rfl, hreg⟩ := hs
  obtain ⟨q', hsil, hI'⟩ := h q s hI
  exact ⟨q', hsil, hI', p₀, List.append_assoc p₀ w xs, hreg⟩

/-- The byte behind a token, on which the token is used. -/
theorem passes_store (h : ∀ q s, I q s → ∃ as q', M.move q b = .go as q' ∧ ∀ buf p ys,
    buf.drop (reg s) = w ++ b :: ys → p = reg s + w.length → I' q' (runActs (act buf) p as s)) :
    M.Passes act (Behind I reg w) [b] (Always I') := by
  refine passes_one fun q pre ys s hs => ?_
  obtain ⟨hI, p₀, rfl, hreg⟩ := hs
  obtain ⟨as, q', hm, hact⟩ := h q s hI
  refine ⟨as, q', hm, hact _ _ ys ?_ ?_⟩
  · rw [hreg, List.append_assoc, List.drop_left]
  · rw [hreg, List.length_append]

/-- A byte that is passed without a token. -/
theorem passes_step (h : ∀ q s, I q s → ∃ as q', M.move q b = .go as q' ∧ ∀ buf p,
    I' q' (runActs (act buf) p as s)) : M.Passes act (Always I) [b] (Always I') := by
  refine passes_one fun q pre ys s hs => ?_
  obtain ⟨as, q', hm, hact⟩ := h q s hs
  exact ⟨as, q', hm, hact _ _⟩

/-- A byte that ends the scan. -/
theorem breaks_step (h : ∀ q s, I q s → ∃ as q', M.move q b = .brk as q' ∧ ∀ buf p,
    I' q' (runActs (act buf) p as s)) : M.Breaks act (Always I) [b] (Always I') := by
  refine breaks_one fun q pre ys s hs => ?_
  obtain ⟨as, q', hm, hact⟩ := h q s hs
  exact ⟨as, q', hm, hact _ _⟩

/-! ### A name and a value -/

/-- The registers for a field. -/
structure Registers (σ : Type*) where
  /-- Where the name begins. -/
  start : σ → ℕ
  /-- How long the name is. -/
  len : σ → ℕ
  /-- Where the value begins. -/
  mark : σ → ℕ

/-- Behind the name `k`, with perhaps more bytes between. -/
def Named (r : Registers σ) (I : Q → σ → Prop) (k : List B) : Assertion Q B σ :=
  fun q pre s => I q s ∧ ∃ p₀ t, pre = p₀ ++ k ++ t ∧ r.start s = p₀.length ∧
    r.len s = k.length

/-- Behind the name `k` and the part `w` of the value. -/
def InField (r : Registers σ) (I : Q → σ → Prop) (k w : List B) : Assertion Q B σ :=
  fun q pre s => I q s ∧ ∃ p₀ t, pre = p₀ ++ k ++ t ++ w ∧ r.start s = p₀.length ∧
    r.len s = k.length ∧ r.mark s = (p₀ ++ k ++ t).length

variable {r : Registers σ} {k : List B}

theorem InField.named {q : Q} {pre : List B} {s : σ} (h : InField r I k w q pre s) :
    Named r I k q pre s := by
  obtain ⟨hI, p₀, t, rfl, hstart, hlen, -⟩ := h
  exact ⟨hI, p₀, t ++ w, by simp, hstart, hlen⟩

/-- The byte behind the name, on which its length is stored. -/
theorem passes_name (h : ∀ q s, I q s → ∃ as q', M.move q b = .go as q' ∧ ∀ buf p,
    r.start s ≤ p → I' q' (runActs (act buf) p as s) ∧
      r.start (runActs (act buf) p as s) = r.start s ∧
      r.len (runActs (act buf) p as s) = p - r.start s) :
    M.Passes act (Behind I r.start k) [b] (Named r I' k) := by
  refine passes_one fun q pre ys s hs => ?_
  obtain ⟨hI, p₀, rfl, hreg⟩ := hs
  obtain ⟨as, q', hm, hact⟩ := h q s hI
  obtain ⟨hI', hstart, hlen⟩ := hact (p₀ ++ k ++ b :: ys) (p₀ ++ k).length (by
    rw [hreg, List.length_append]
    exact Nat.le_add_right _ _)
  refine ⟨as, q', hm, hI', p₀, [b], rfl, hstart.trans hreg, ?_⟩
  rw [hlen, hreg, List.length_append, Nat.add_sub_cancel_left]

/-- A byte behind the name at which the value may begin. -/
theorem passes_mark (h : ∀ q s, I q s → ∃ as q', M.move q b = .go as q' ∧ ∀ buf p,
    I' q' (runActs (act buf) p as s) ∧ r.start (runActs (act buf) p as s) = r.start s ∧
      r.len (runActs (act buf) p as s) = r.len s ∧ r.mark (runActs (act buf) p as s) = p) :
    M.Passes act (Named r I k) [b] (InField r I' k [b]) := by
  refine passes_one fun q pre ys s hs => ?_
  obtain ⟨hI, p₀, t, rfl, hstart, hlen⟩ := hs
  obtain ⟨as, q', hm, hact⟩ := h q s hI
  obtain ⟨hI', hstart', hlen', hmark⟩ := hact (p₀ ++ k ++ t ++ b :: ys) (p₀ ++ k ++ t).length
  exact ⟨as, q', hm, hI', p₀, t, rfl, hstart'.trans hstart, hlen'.trans hlen, hmark⟩

/-- More bytes of the value. -/
theorem passes_inField (h : ∀ q s, I q s → ∃ q', M.silent xs q = some q' ∧ I' q' s) :
    M.Passes act (InField r I k w) xs (InField r I' k (w ++ xs)) := by
  refine passes_silent fun q pre s hs => ?_
  obtain ⟨hI, p₀, t, rfl, hregs⟩ := hs
  obtain ⟨q', hsil, hI'⟩ := h q s hI
  exact ⟨q', hsil, hI', p₀, t, List.append_assoc _ w xs, hregs⟩

/-- The byte behind the value, on which the field is used. -/
theorem passes_field (h : ∀ q s, I q s → ∃ as q', M.move q b = .go as q' ∧ ∀ buf p xs ys,
    buf.drop (r.start s) = k ++ xs → r.len s = k.length → buf.drop (r.mark s) = w ++ b :: ys →
      p = r.mark s + w.length → I' q' (runActs (act buf) p as s)) :
    M.Passes act (InField r I k w) [b] (Always I') := by
  refine passes_one fun q pre ys s hs => ?_
  obtain ⟨hI, p₀, t, rfl, hstart, hlen, hmark⟩ := hs
  obtain ⟨as, q', hm, hact⟩ := h q s hI
  refine ⟨as, q', hm, hact _ _ (t ++ w ++ b :: ys) ys ?_ hlen ?_ ?_⟩
  · rw [hstart, List.append_assoc, List.append_assoc, List.append_assoc, List.drop_left,
      List.append_assoc]
  · rw [hmark, List.append_assoc (p₀ ++ k ++ t), List.drop_left]
  · rw [hmark, List.length_append]

/-- The byte behind the name on which a field without a value is used. -/
theorem passes_field_empty (h : ∀ q s, I q s → ∃ as q', M.move q b = .go as q' ∧ ∀ buf p xs,
    buf.drop (r.start s) = k ++ xs → r.len s = k.length → I' q' (runActs (act buf) p as s)) :
    M.Passes act (Named r I k) [b] (Always I') := by
  refine passes_one fun q pre ys s hs => ?_
  obtain ⟨hI, p₀, t, rfl, hstart, hlen⟩ := hs
  obtain ⟨as, q', hm, hact⟩ := h q s hI
  refine ⟨as, q', hm, hact _ _ (t ++ b :: ys) ?_ hlen⟩
  rw [hstart, List.append_assoc, List.append_assoc, List.drop_left]

end Machine

end Scan

end YXTWebCpp
