import Line2.Library.Stack
import Mathlib.Data.List.Forall2

/-! The stack a process starts on. A count, the argument pointers, the environment and
the auxiliary pairs follow one another, each list with an end of its own, and start-up
code walks over them. -/
namespace Line2.Library.ProcessImage
open Memory Stack

/-- What lies above the stack pointer. Only the last word of each list is zero. -/
structure Image where
  argv : List Word
  envp : List Word
  auxv : List (Word × Word)
  atNull : Word
  envp_nonnull : ∀ e ∈ envp, e ≠ 0#32
  auxv_nonnull : ∀ p ∈ auxv, p.1 ≠ 0#32

def pairWords (pairs : List (Word × Word)) : List Word := pairs.flatMap fun p => [p.1,p.2]

def Image.words (i : Image) : List Word :=
  (BitVec.ofNat 32 i.argv.length :: (i.argv ++ [0#32])) ++
    ((i.envp ++ [0#32]) ++ (pairWords i.auxv ++ [0#32,i.atNull]))

/-- The bytes at an address are the string's and the NUL that ends it. -/
def CString (m : Mem) (a : Addr) (string : List Byte) : Prop :=
  load m a (string.length + 1) = string ++ [0#8]

/-- An image at `sp` in words of `written`, whose arguments are these strings. -/
structure Image.At (i : Image) (written : Addr → Prop) (m : Mem) (sp : Addr)
    (args : List (List Byte)) : Prop where
  fits : 4 * i.words.length ≤ 2^32
  words : Words m sp i.words
  written : ∀ k < i.words.length, written (sp + BitVec.ofNat 32 (4 * k))
  strings : List.Forall₂ (CString m) i.argv args

/-- Past the first zero word from `a` on, within `n` of them. -/
def skipWords (m : Mem) : Nat → Addr → Option Addr
  | 0, _ => none
  | n + 1, a => if read32 m a = 0#32 then some (a + 4#32) else skipWords m n (a + 4#32)

/-- Past the first pair of a zero type. -/
def skipPairs (m : Mem) : Nat → Addr → Option Addr
  | 0, _ => none
  | n + 1, a => if read32 m a = 0#32 then some (a + 8#32) else skipPairs m n (a + 8#32)

/-- Start-up code takes the count, steps over the arguments, and walks over the
environment and the auxiliary pairs. -/
def startupWalk (m : Mem) (n : Nat) (sp : Addr) : Option Addr :=
  (skipWords m n (sp + 4#32 + 4#32 * read32 m sp + 4#32)).bind (skipPairs m n)

theorem pairWords_length (pairs : List (Word × Word)) :
    (pairWords pairs).length = 2 * pairs.length := by
  induction pairs with
  | nil => rfl
  | cons p pairs ih =>
    change (pairWords pairs).length + 2 = 2 * (pairs.length + 1)
    omega

theorem skipWords_list {m : Mem} {ws : List Word} {a : Addr} (h : Words m a (ws ++ [0#32]))
    (hne : ∀ w ∈ ws, w ≠ 0#32) {n : Nat} (hn : ws.length < n) :
    skipWords m n a = some (a + BitVec.ofNat 32 (4 * (ws.length + 1))) := by
  induction ws generalizing a n with
  | nil =>
    obtain ⟨n,rfl⟩ := Nat.exists_eq_succ_of_ne_zero (Nat.ne_of_gt hn)
    exact if_pos h.1
  | cons w ws ih =>
    obtain ⟨n,rfl⟩ := Nat.exists_eq_succ_of_ne_zero (Nat.ne_of_gt (Nat.zero_lt_of_lt hn))
    have hw : read32 m a ≠ 0#32 := h.1 ▸ hne w List.mem_cons_self
    have hrest := ih h.2 (fun v hv => hne v (List.mem_cons_of_mem _ hv)) (Nat.lt_of_succ_lt_succ hn)
    rw [skipWords, if_neg hw, hrest, Option.some.injEq, List.length_cons]
    bv_omega

theorem skipPairs_list {m : Mem} {pairs : List (Word × Word)} {a : Addr} {v : Word}
    (h : Words m a (pairWords pairs ++ [0#32,v])) (hne : ∀ p ∈ pairs, p.1 ≠ 0#32) {n : Nat}
    (hn : pairs.length < n) :
    skipPairs m n a = some (a + BitVec.ofNat 32 (8 * (pairs.length + 1))) := by
  induction pairs generalizing a n with
  | nil =>
    obtain ⟨n,rfl⟩ := Nat.exists_eq_succ_of_ne_zero (Nat.ne_of_gt hn)
    exact if_pos h.1
  | cons p pairs ih =>
    obtain ⟨n,rfl⟩ := Nat.exists_eq_succ_of_ne_zero (Nat.ne_of_gt (Nat.zero_lt_of_lt hn))
    obtain ⟨hp,_,hws⟩ := h
    have hne' : read32 m a ≠ 0#32 := hp ▸ hne p List.mem_cons_self
    rw [BitVec.add_assoc] at hws
    have hrest := ih hws (fun q hq => hne q (List.mem_cons_of_mem _ hq)) (Nat.lt_of_succ_lt_succ hn)
    rw [skipPairs, if_neg hne']
    refine hrest.trans ?_
    rw [Option.some.injEq, List.length_cons]
    bv_omega

theorem Image.words_length (i : Image) :
    i.words.length = i.argv.length + 2 + (i.envp.length + 1) + 2 * (i.auxv.length + 1) := by
  simp only [words, List.length_append, List.length_cons, List.length_nil, pairWords_length]
  omega

/-- The walk looks at no word but the pairs' types. -/
theorem skipPairs_congr {m m' : Mem} {n : Nat} {a : Addr}
    (h : ∀ k < n, read32 m' (a + BitVec.ofNat 32 (8 * k)) = read32 m (a + BitVec.ofNat 32 (8 * k))) :
    skipPairs m' n a = skipPairs m n a := by
  induction n generalizing a with
  | zero => rfl
  | succ n ih =>
    have hhead : read32 m' a = read32 m a := by simpa using h 0 (Nat.zero_lt_succ n)
    rw [skipPairs, skipPairs, hhead, ih]
    intro k hk
    have hnext : a + 8#32 + BitVec.ofNat 32 (8 * k) = a + BitVec.ofNat 32 (8 * (k + 1)) := by
      bv_omega
    rw [hnext]
    exact h (k + 1) (Nat.succ_lt_succ hk)

/-- Over an image the walk ends, and ends where the image does. -/
theorem Image.At.walk {i : Image} {written : Addr → Prop} {m : Mem} {sp : Addr}
    {args : List (List Byte)} (h : i.At written m sp args) :
    startupWalk m i.words.length sp = some (sp + BitVec.ofNat 32 (4 * i.words.length)) := by
  have hlen := i.words_length
  obtain ⟨hcount,hrest⟩ := (words_append ..).mp h.words
  obtain ⟨henvp,hauxv⟩ := (words_append ..).mp hrest
  have hargc : read32 m sp = BitVec.ofNat 32 i.argv.length := hcount.1
  have hskip := skipWords_list henvp i.envp_nonnull (n := i.words.length) (by omega)
  have hpairs := skipPairs_list hauxv i.auxv_nonnull (n := i.words.length) (by omega)
  simp only [List.length_cons, List.length_append, List.length_nil] at hskip hpairs
  have hstart : sp + 4#32 + 4#32 * read32 m sp + 4#32 =
      sp + BitVec.ofNat 32 (4 * (i.argv.length + 1 + 1)) := by
    rw [hargc]
    bv_omega
  have hafter : sp + BitVec.ofNat 32 (4 * (i.argv.length + 1 + 1)) +
      BitVec.ofNat 32 (4 * (i.envp.length + 1)) + BitVec.ofNat 32 (8 * (i.auxv.length + 1)) =
      sp + BitVec.ofNat 32 (4 * i.words.length) := by
    rw [hlen]
    bv_omega
  rw [startupWalk, hstart, hskip, Option.bind_some, hpairs, hafter]

end Line2.Library.ProcessImage
