import Line2.Library.Locality

/-! An iovec array in guest memory and the buffers that it names. An array is as little
protected as any other bytes: a buffer may lie over it. -/
namespace Line2.Lnexec
open Library.Memory Library.Locality

structure IoVec where
  iovBase : Addr
  iovLen : Word
  deriving DecidableEq

/-- `iov[CurrentBuffer]` -/
def iovEntry (m : Mem) (iov : Addr) (i : Nat) : IoVec :=
  ⟨read32 m (iov + BitVec.ofNat 32 (8 * i)),read32 m (iov + BitVec.ofNat 32 (8 * i) + 4#32)⟩

/-- The `n` entries from `i` on. -/
def iovEntries (m : Mem) (iov : Addr) (i n : Nat) : List IoVec :=
  (List.range' i n).map (iovEntry m iov)

/-- The bytes of the `n` entries from `i` on. -/
def InArray (iov : Addr) (i n : Nat) : Addr → Prop :=
  Within (iov + BitVec.ofNat 32 (8 * i)) (8 * n)

/-- The concatenation of the buffers. -/
def gathered (m : Mem) (iov : List IoVec) : List Byte :=
  iov.flatMap fun v => load m v.iovBase v.iovLen.toNat

/-- The bytes of the buffers. -/
def InBuffers (iov : List IoVec) (x : Addr) : Prop :=
  ∃ v ∈ iov, Within v.iovBase v.iovLen.toNat x

/-- No two buffers share a byte. -/
def Apart (iov : List IoVec) : Prop :=
  iov.Pairwise fun v w =>
    ∀ x, ¬ (Within v.iovBase v.iovLen.toNat x ∧ Within w.iovBase w.iovLen.toNat x)

/-- No buffer of the array lies over it. -/
def OffArray (m : Mem) (iov : Addr) (n : Nat) : Prop :=
  Avoids (InArray iov 0 n) (InBuffers (iovEntries m iov 0 n))

/-- The buffers share no byte, neither with each other nor with the array. -/
structure Separate (m : Mem) (iov : Addr) (n : Nat) : Prop where
  apart : Apart (iovEntries m iov 0 n)
  offArray : OffArray m iov n

theorem iovEntries_succ (m : Mem) (iov : Addr) (i n : Nat) :
    iovEntries m iov i (n + 1) = iovEntry m iov i :: iovEntries m iov (i + 1) n := by
  rw [iovEntries, List.range'_succ, List.map_cons, ← iovEntries]

theorem InArray.entry {iov : Addr} {i : Nat} {x : Addr} :
    (Within (iov + BitVec.ofNat 32 (8 * i)) 4 x → InArray iov i 1 x) ∧
    (Within (iov + BitVec.ofNat 32 (8 * i) + 4#32) 4 x → InArray iov i 1 x) := by
  simp only [InArray, Within]
  constructor <;> intro hx <;> bv_omega

/-- Entry `i` and the later ones. -/
theorem InArray.split (iov : Addr) (i n : Nat) (x : Addr) :
    (InArray iov i 1 x → InArray iov i (n + 1) x) ∧
    (InArray iov (i + 1) n x → InArray iov i (n + 1) x) := by
  have hnext : BitVec.ofNat 32 (8 * (i + 1)) = BitVec.ofNat 32 (8 * i) + 8#32 := by
    rw [Nat.mul_add, BitVec.ofNat_add]
  simp only [InArray, Within, hnext]
  generalize BitVec.ofNat 32 (8 * i) = offset
  constructor <;> intro hx
  · omega
  · bv_omega

/-- An entry depends on its eight bytes. -/
theorem iovEntry_congr {D : Addr → Prop} {m m' : Mem} (h : AgreeOutside D m m') {iov : Addr}
    {i : Nat} (ha : Avoids (InArray iov i 1) D) : iovEntry m' iov i = iovEntry m iov i := by
  rw [iovEntry, iovEntry, h.read32 (ha.mono fun _ => InArray.entry.1),
    h.read32 (ha.mono fun _ => InArray.entry.2)]

theorem iovEntries_congr {D : Addr → Prop} {m m' : Mem} (h : AgreeOutside D m m') {iov : Addr}
    {i n : Nat} (ha : Avoids (InArray iov i n) D) :
    iovEntries m' iov i n = iovEntries m iov i n := by
  induction n generalizing i with
  | zero => rfl
  | succ n ih =>
    rw [iovEntries_succ, iovEntries_succ, iovEntry_congr h (ha.mono fun x => (InArray.split ..).1),
      ih (ha.mono fun x => (InArray.split ..).2)]

theorem gathered_cons (m : Mem) (v : IoVec) (iov : List IoVec) :
    gathered m (v :: iov) = load m v.iovBase v.iovLen.toNat ++ gathered m iov :=
  List.flatMap_cons

end Line2.Lnexec
