import Line2.Library.Memory

/-! Words held from the stack pointer upward. A push puts a word below them, a
pop drops the lowest; stores outside their bytes leave them as they are. -/
namespace Line2.Library.Stack
open Memory

/-- The dwords at `a`, `a+4`, ... are the listed ones. -/
def Words (m : Mem) : Addr → List Word → Prop
  | _, [] => True
  | a, v :: vs => read32 m a = v ∧ Words m (a + 4#32) vs

theorem Words.congr {m m' : Mem} {a : Addr} {ws : List Word} (hl : 4 * ws.length ≤ 2^32)
    (hm : ∀ x, Within a (4 * ws.length) x → m' x = m x) (h : Words m a ws) : Words m' a ws := by
  induction ws generalizing a with
  | nil => trivial
  | cons v vs ih =>
    obtain ⟨hv,hvs⟩ := h
    simp only [List.length_cons] at hl hm
    refine ⟨?_,ih (by omega) ?_ hvs⟩
    · rw [read32_congr (fun x hx => hm x (by simp only [Within] at *; omega)), hv]
    · intro x hx
      apply hm
      simp only [Within] at *
      bv_omega

theorem words_append (m : Mem) (a : Addr) (us vs : List Word) :
    Words m a (us ++ vs) ↔ Words m a us ∧ Words m (a + BitVec.ofNat 32 (4 * us.length)) vs := by
  induction us generalizing a with
  | nil => simp [Words]
  | cons u us ih =>
    have hnext : a + 4#32 + BitVec.ofNat 32 (4 * us.length) =
        a + BitVec.ofNat 32 (4 * (us.length + 1)) := by bv_omega
    rw [List.cons_append, Words, Words, ih, hnext, and_assoc, List.length_cons]

theorem Words.push {m : Mem} {a : Addr} {ws : List Word} (v : Word)
    (hl : 4 * ws.length + 4 ≤ 2^32) (h : Words m a ws) :
    Words (write32 m (a - 4#32) v) (a - 4#32) (v :: ws) := by
  refine ⟨read32_write32 m _ v,?_⟩
  rw [BitVec.sub_add_cancel]
  apply Words.congr (by omega) _ h
  intro x hx
  apply write32_outside
  simp only [Within] at *
  bv_omega

theorem Words.get {m : Mem} {a : Addr} {ws : List Word} (h : Words m a ws) (k : Nat)
    (hk : k < ws.length) : read32 m (a + BitVec.ofNat 32 (4 * k)) = ws[k] := by
  induction ws generalizing a k with
  | nil => exact absurd hk (Nat.not_lt_zero k)
  | cons v vs ih =>
    obtain ⟨hv,hvs⟩ := h
    cases k with
    | zero => simpa using hv
    | succ k =>
      have hrest := ih hvs k (by simpa using hk)
      rw [List.getElem_cons_succ, ← hrest]
      congr 1
      bv_omega

end Line2.Library.Stack
