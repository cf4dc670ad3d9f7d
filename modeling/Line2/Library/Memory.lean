import Mathlib.Data.List.Basic
import Mathlib.Algebra.Group.Nat.Defs

/-! Byte memory of a 32-bit address space. Every address computation wraps at
2^32, and a dword is stored little-endian. -/
namespace Line2.Library.Memory

abbrev Byte := BitVec 8
abbrev Word := BitVec 32
abbrev Addr := BitVec 32
abbrev Mem := Addr → Byte

/-- The address is one of the `n` bytes from `lo` upward. -/
def Within (lo : Addr) (n : Nat) (x : Addr) : Prop := (x - lo).toNat < n

instance (lo : Addr) (n : Nat) (x : Addr) : Decidable (Within lo n x) :=
  inferInstanceAs (Decidable ((x - lo).toNat < n))

def word32 (b0 b1 b2 b3 : Byte) : Word :=
  BitVec.ofNat 32 (b0.toNat + 256 * b1.toNat + 65536 * b2.toNat + 16777216 * b3.toNat)

def bytes32 (v : Word) : List Byte :=
  [BitVec.ofNat 8 v.toNat, BitVec.ofNat 8 (v.toNat / 256),
    BitVec.ofNat 8 (v.toNat / 65536), BitVec.ofNat 8 (v.toNat / 16777216)]

/-- Store consecutive bytes; everything outside their range keeps its value. -/
def store (m : Mem) (a : Addr) (bs : List Byte) : Mem :=
  fun x => (bs[(x - a).toNat]?).getD (m x)

/-- The `n` bytes from `a` upward. -/
def load (m : Mem) (a : Addr) (n : Nat) : List Byte :=
  (List.range n).map fun k => m (a + BitVec.ofNat 32 k)

/-- Stores one after another. -/
def storeAll (m : Mem) (stores : List (Addr × List Byte)) : Mem :=
  stores.foldl (fun m s => store m s.1 s.2) m

def read32 (m : Mem) (a : Addr) : Word := word32 (m a) (m (a + 1#32)) (m (a + 2#32)) (m (a + 3#32))

def write32 (m : Mem) (a : Addr) (v : Word) : Mem := store m a (bytes32 v)

@[simp] theorem load_length (m : Mem) (a : Addr) (n : Nat) : (load m a n).length = n := by
  simp [load]

@[simp] theorem bytes32_length (v : Word) : (bytes32 v).length = 4 := rfl

/-- The offset of a byte from the start of its range, however the range wraps. -/
@[simp] theorem offset_toNat (a : Addr) {k : Nat} (hk : k < 2^32) :
    (a + BitVec.ofNat 32 k - a).toNat = k := by
  bv_omega

theorem store_outside (m : Mem) (a : Addr) (bs : List Byte) (x : Addr)
    (h : ¬ Within a bs.length x) : store m a bs x = m x := by
  rw [store, List.getElem?_eq_none (Nat.le_of_not_lt h), Option.getD_none]

theorem store_inside (m : Mem) (a : Addr) (bs : List Byte) (k : Nat) (hk : k < bs.length)
    (hb : bs.length ≤ 2^32) : store m a bs (a + BitVec.ofNat 32 k) = bs[k] := by
  simp only [store]
  rw [offset_toNat a (by omega), List.getElem?_eq_getElem hk, Option.getD_some]

theorem storeAll_outside {stores : List (Addr × List Byte)} {x : Addr}
    (h : ∀ s ∈ stores, ¬ Within s.1 s.2.length x) (m : Mem) : storeAll m stores x = m x := by
  induction stores generalizing m with
  | nil => rfl
  | cons s stores ih =>
    have hs := h s List.mem_cons_self
    have hrest := ih (fun t ht => h t (List.mem_cons_of_mem _ ht)) (store m s.1 s.2)
    exact hrest.trans (store_outside m s.1 s.2 x hs)

theorem load_congr {m m' : Mem} {a : Addr} {n : Nat} (hn : n ≤ 2^32)
    (h : ∀ x, Within a n x → m' x = m x) : load m' a n = load m a n := by
  apply List.map_congr_left
  intro k hk
  apply h
  rw [List.mem_range] at hk
  rw [Within, offset_toNat a (by omega)]
  exact hk

/-- Among stores that share no byte each one's bytes are there in the end, in any order. -/
theorem storeAll_inside {stores : List (Addr × List Byte)}
    (hapart : stores.Pairwise fun s t =>
      ∀ x, ¬ (Within s.1 s.2.length x ∧ Within t.1 t.2.length x))
    (hlen : ∀ s ∈ stores, s.2.length ≤ 2^32) {s : Addr × List Byte} (hs : s ∈ stores) {k : Nat}
    (hk : k < s.2.length) (m : Mem) : storeAll m stores (s.1 + BitVec.ofNat 32 k) = s.2[k] := by
  induction stores generalizing m with
  | nil => cases hs
  | cons t stores ih =>
    obtain ⟨hhead,htail⟩ := List.pairwise_cons.mp hapart
    have hl := hlen s hs
    rcases List.mem_cons.mp hs with rfl | hs
    · have hin : Within s.1 s.2.length (s.1 + BitVec.ofNat 32 k) := by
        rw [Within, offset_toNat s.1 (by omega)]
        exact hk
      have hrest := storeAll_outside (fun t ht hw => hhead t ht _ ⟨hin,hw⟩) (store m s.1 s.2)
      exact hrest.trans (store_inside m s.1 s.2 k hk hl)
    · exact ih htail (fun t ht => hlen t (List.mem_cons_of_mem _ ht)) hs _

theorem load_append (m : Mem) (a : Addr) (n k : Nat) :
    load m a (n + k) = load m a n ++ load m (a + BitVec.ofNat 32 n) k := by
  simp only [load, List.range_add, List.map_append, List.map_map, Function.comp_def,
    BitVec.ofNat_add, BitVec.add_assoc]

theorem load_storeAll {stores : List (Addr × List Byte)}
    (hapart : stores.Pairwise fun s t =>
      ∀ x, ¬ (Within s.1 s.2.length x ∧ Within t.1 t.2.length x))
    (hlen : ∀ s ∈ stores, s.2.length ≤ 2^32) {s : Addr × List Byte} (hs : s ∈ stores) (m : Mem) :
    load (storeAll m stores) s.1 s.2.length = s.2 := by
  apply List.ext_getElem
  · rw [load_length]
  · intro k hk hk'
    simp only [load, List.getElem_map, List.getElem_range]
    exact storeAll_inside hapart hlen hs hk' m

theorem write32_outside (m : Mem) (a : Addr) (v : Word) (x : Addr)
    (h : ¬ Within a 4 x) : write32 m a v x = m x :=
  store_outside m a (bytes32 v) x h

theorem read32_congr {m m' : Mem} {a : Addr} (h : ∀ x, Within a 4 x → m' x = m x) :
    read32 m' a = read32 m a := by
  simp only [read32]
  rw [h a, h (a + 1#32), h (a + 2#32), h (a + 3#32)]
  all_goals simp only [Within]; bv_omega

private theorem word32_bytes32 (v : Word) : word32 (BitVec.ofNat 8 v.toNat)
    (BitVec.ofNat 8 (v.toNat / 256)) (BitVec.ofNat 8 (v.toNat / 65536))
    (BitVec.ofNat 8 (v.toNat / 16777216)) = v := by
  apply BitVec.eq_of_toNat_eq
  have hv := v.isLt
  simp only [word32, BitVec.toNat_ofNat]
  omega

/-- A dword reads back as it was written, also across the end of memory. -/
@[simp] theorem read32_write32 (m : Mem) (a : Addr) (v : Word) :
    read32 (write32 m a v) a = v := by
  have hb (k : Nat) (hk : k < (bytes32 v).length) :
      write32 m a v (a + BitVec.ofNat 32 k) = (bytes32 v)[k] :=
    store_inside m a (bytes32 v) k hk (by simp)
  have h0 : write32 m a v a = (bytes32 v)[0] := by simpa using hb 0 (by simp)
  rw [read32, h0, hb 1 (by simp), hb 2 (by simp), hb 3 (by simp)]
  exact word32_bytes32 v

private theorem bytes32_word32 (b0 b1 b2 b3 : Byte) :
    bytes32 (word32 b0 b1 b2 b3) = [b0,b1,b2,b3] := by
  have h0 := b0.isLt
  have h1 := b1.isLt
  have h2 := b2.isLt
  have h3 := b3.isLt
  simp only [bytes32, word32, BitVec.toNat_ofNat, List.cons.injEq, and_true]
  refine ⟨?_,?_,?_,?_⟩ <;> apply BitVec.eq_of_toNat_eq <;> simp only [BitVec.toNat_ofNat] <;> omega

/-- Writing back what is there changes nothing. -/
@[simp] theorem write32_read32 (m : Mem) (a : Addr) : write32 m a (read32 m a) = m := by
  funext x
  by_cases hx : Within a 4 x
  · obtain ⟨k,hk,rfl⟩ : ∃ k < 4, x = a + BitVec.ofNat 32 k :=
      ⟨(x - a).toNat,hx,by bv_omega⟩
    rw [write32, read32, bytes32_word32, store, offset_toNat a (by omega)]
    match k, hk with
    | 0, _ => simp
    | 1, _ => rfl
    | 2, _ => rfl
    | 3, _ => rfl
  · exact write32_outside m a _ x hx

/-- A dword whose four bytes avoid the stored one keeps its value. -/
theorem read32_write32_apart (m : Mem) (a b : Addr) (v : Word)
    (h : 4 ≤ (b - a).toNat ∧ (b - a).toNat ≤ 2^32 - 4) :
    read32 (write32 m a v) b = read32 m b := by
  apply read32_congr
  intro x hx
  apply write32_outside
  simp only [Within] at *
  bv_omega

end Line2.Library.Memory
