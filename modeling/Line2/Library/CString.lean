import Line2.Library.Memory

/-! Byte strings as C keeps them in arrays: up to the first NUL, and copied with a bound. -/
namespace Line2.Library.CString
open Memory

/-- The characters of a string literal. -/
def literal (s : String) : List Byte := s.toList.map fun c => BitVec.ofNat 8 c.toNat

/-- The string in an array: its bytes before the first NUL. -/
def upToNul (bs : List Byte) : List Byte := bs.takeWhile (· ≠ 0#8)

/-- The `n` bytes that `strncpy(dst, s, n)` stores: the string cut to `n`, then NULs. -/
def strncpy (s : List Byte) (n : Nat) : List Byte := s.take n ++ List.replicate (n - s.length) 0#8

@[simp] theorem strncpy_length (s : List Byte) (n : Nat) : (strncpy s n).length = n := by
  simp only [strncpy, List.length_append, List.length_take, List.length_replicate]
  omega

theorem upToNul_append {s : List Byte} (hs : 0#8 ∉ s) (rest : List Byte) :
    upToNul (s ++ rest) = s ++ upToNul rest := by
  apply List.takeWhile_append_of_pos
  intro b hb
  rw [decide_eq_true_eq]
  rintro rfl
  exact hs hb

/-- A string shorter than the bound reads back, whatever follows the copy. -/
theorem upToNul_strncpy {s : List Byte} (hs : 0#8 ∉ s) {n : Nat} (hn : s.length < n)
    (rest : List Byte) : upToNul (strncpy s n ++ rest) = s := by
  obtain ⟨k,hk⟩ : ∃ k, n - s.length = k + 1 := Nat.exists_eq_succ_of_ne_zero (by omega)
  rw [strncpy, List.take_of_length_le (Nat.le_of_lt hn), hk, List.replicate_succ,
    List.append_assoc, upToNul_append hs]
  simp [upToNul]

/-- The bytes from `a` up to the first NUL, or `n` of them. -/
def stringUpTo (m : Mem) : Nat → Addr → List Byte
  | 0, _ => []
  | n + 1, a => if m a = 0#8 then [] else m a :: stringUpTo m n (a + 1#32)

/-- The string at `a`; at most all of memory is one. -/
def stringAt (m : Mem) (a : Addr) : List Byte := stringUpTo m (2^32) a

/-- A string is its bytes and the NUL after them. -/
theorem stringUpTo_congr {m m' : Mem} {n : Nat} {a : Addr} (hn : n ≤ 2^32)
    (h : ∀ x, Within a ((stringUpTo m n a).length + 1) x → m' x = m x) :
    stringUpTo m' n a = stringUpTo m n a := by
  induction n generalizing a with
  | zero => rfl
  | succ n ih =>
    have hfirst : m' a = m a := h a (by simp [Within])
    rw [stringUpTo, stringUpTo, hfirst]
    split
    · rfl
    · rename_i hne
      rw [stringUpTo, if_neg hne, List.length_cons] at h
      rw [ih (by omega) fun x hx => ?_]
      apply h
      simp only [Within] at *
      bv_omega

end Line2.Library.CString
