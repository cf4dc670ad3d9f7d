import Line2.ElfLoader.ElfFile

/-! The image's boundaries. The loop finds the lowest address and the highest end of
the PT_LOAD segments, and from them the range that Map asks for. -/
namespace Line2.ElfLoader
open Library.Memory

/-- Where a segment ends, as 32 bits hold it. -/
def Elf32Phdr.wrappedEnd (p : Elf32Phdr) : Word := p.p_vaddr + p.p_memsz

def lowest (headers : List Elf32Phdr) : Nat :=
  (((loads headers).map fun p => p.p_vaddr.toNat).min?).getD 0xffffffff

def highest (headers : List Elf32Phdr) : Nat :=
  (((loads headers).map fun p => p.wrappedEnd.toNat).max?).getD 0

private theorem toNat_narrow (a b : Word) :
    (if a < b then a else b).toNat = min b.toNat a.toNat := by
  split <;> rename_i h <;> simp only [BitVec.lt_def] at h <;> omega

private theorem toNat_widen (a b : Word) :
    (if a < b then b else a).toNat = max a.toNat b.toNat := by
  split <;> rename_i h <;> simp only [BitVec.lt_def] at h <;> omega

private theorem foldl_widen (headers : List Elf32Phdr) (Min Max : Word) :
    (headers.foldl widen (Min,Max)).1.toNat =
      ((loads headers).map fun p => p.p_vaddr.toNat).foldl min Min.toNat ∧
    (headers.foldl widen (Min,Max)).2.toNat =
      ((loads headers).map fun p => p.wrappedEnd.toNat).foldl max Max.toNat := by
  induction headers generalizing Min Max with
  | nil => exact ⟨rfl,rfl⟩
  | cons p headers ih =>
    by_cases hp : p.p_type = PT_LOAD
    · have hrest := ih (if p.p_vaddr < Min then p.p_vaddr else Min)
        (if Max < p.wrappedEnd then p.wrappedEnd else Max)
      rw [toNat_narrow, toNat_widen] at hrest
      simp only [List.foldl_cons, widen, if_pos hp, loads_load hp, List.map_cons]
      exact hrest
    · simp only [List.foldl_cons, widen, if_neg hp, loads_other hp]
      exact ih Min Max

/-- The loop computes the least address and the greatest end. -/
theorem getImageBoundaries_eq (headers : List Elf32Phdr) :
    (getImageBoundaries headers).1.toNat = lowest headers ∧
    (getImageBoundaries headers).2.toNat = highest headers := by
  obtain ⟨hmin,hmax⟩ := foldl_widen headers 0xffffffff#32 0#32
  rw [getImageBoundaries, hmin, hmax, List.foldl_min, List.foldl_max]
  constructor
  · cases h : ((loads headers).map fun p => p.p_vaddr.toNat).min? with
    | none => rw [lowest, h]; rfl
    | some lo =>
      obtain ⟨hmem,_⟩ := List.min?_eq_some_iff.mp h
      obtain ⟨p,_,rfl⟩ := List.mem_map.mp hmem
      rw [lowest, h]
      exact Nat.min_eq_right (Nat.le_of_lt_succ p.p_vaddr.isLt)
  · exact Nat.zero_max _

/-- The lowest address is a segment's, and no segment's is below it. -/
theorem lowest_spec {headers : List Elf32Phdr} (h : loads headers ≠ []) :
    (∃ p ∈ loads headers, p.p_vaddr.toNat = lowest headers) ∧
    ∀ p ∈ loads headers, lowest headers ≤ p.p_vaddr.toNat := by
  have hsome := List.isSome_min?_of_ne_nil
    (mt List.map_eq_nil_iff.mp h : ((loads headers).map fun p => p.p_vaddr.toNat) ≠ [])
  obtain ⟨lo,hlo⟩ := Option.isSome_iff_exists.mp hsome
  obtain ⟨hmem,hle⟩ := List.min?_eq_some_iff.mp hlo
  rw [lowest, hlo]
  exact ⟨List.mem_map.mp hmem,fun p hp => hle _ (List.mem_map_of_mem hp)⟩

theorem highest_spec {headers : List Elf32Phdr} (h : loads headers ≠ []) :
    (∃ p ∈ loads headers, p.wrappedEnd.toNat = highest headers) ∧
    ∀ p ∈ loads headers, p.wrappedEnd.toNat ≤ highest headers := by
  have hsome := List.isSome_max?_of_ne_nil
    (mt List.map_eq_nil_iff.mp h : ((loads headers).map fun p => p.wrappedEnd.toNat) ≠ [])
  obtain ⟨hi,hhi⟩ := Option.isSome_iff_exists.mp hsome
  obtain ⟨hmem,hle⟩ := List.max?_eq_some_iff.mp hhi
  rw [highest, hhi]
  exact ⟨List.mem_map.mp hmem,fun p hp => hle _ (List.mem_map_of_mem hp)⟩

theorem lowest_lt (headers : List Elf32Phdr) : lowest headers < 2^32 := by
  rw [← (getImageBoundaries_eq headers).1]
  exact BitVec.isLt _

theorem highest_lt (headers : List Elf32Phdr) : highest headers < 2^32 := by
  rw [← (getImageBoundaries_eq headers).2]
  exact BitVec.isLt _

private theorem low_half (a : Word) : (a &&& 0xffff#32).toNat = a.toNat % 65536 :=
  Nat.and_two_pow_sub_one_eq_mod a.toNat 16

private theorem high_half (a : Word) : (a &&& 0xffff0000#32).toNat = a.toNat / 65536 * 65536 := by
  have hmask : a &&& 0xffff0000#32 = a >>> 16 <<< 16 := by
    apply BitVec.eq_of_getLsbD_eq
    intro i hi
    have hbit : ∀ j < 32, (0xffff0000#32).getLsbD j = decide (16 ≤ j) := by decide
    rw [BitVec.getLsbD_and, hbit i hi, BitVec.getLsbD_shiftLeft, BitVec.getLsbD_ushiftRight]
    by_cases h16 : 16 ≤ i
    · simp [h16, hi]
    · simp [h16, hi]
  rw [hmask, BitVec.toNat_shiftLeft, BitVec.toNat_ushiftRight, Nat.shiftRight_eq_div_pow,
    Nat.shiftLeft_eq]
  have ha := a.isLt
  omega

/-- Map asks for the lowest address's 64 KiB block. -/
theorem mappingBase_eq (headers : List Elf32Phdr) :
    (mappingBase headers).toNat = lowest headers / 65536 * 65536 := by
  rw [mappingBase, high_half, (getImageBoundaries_eq headers).1]

/-- The size reaches from there to the highest end, as 32 bits subtract. -/
theorem mappingSize_eq (headers : List Elf32Phdr) :
    (mappingSize headers).toNat =
      (highest headers + 2^32 - lowest headers / 65536 * 65536) % 2^32 := by
  obtain ⟨hmin,hmax⟩ := getImageBoundaries_eq headers
  have hlo := lowest_lt headers
  simp only [mappingSize, BitVec.toNat_add, BitVec.toNat_sub, low_half, hmin, hmax]
  omega

theorem le_pageUp (n : Nat) : n ≤ pageUp n := by
  simp only [pageUp]
  omega

/-- What NtMapViewOfSection may answer: the base asked for, or any where none is,
with room for the view up to the end of the address space. -/
structure Placed (headers : List Elf32Phdr) (base : Addr) : Prop where
  nonnull : base ≠ 0#32
  honoured : mappingBase headers ≠ 0#32 → base = mappingBase headers
  fits : base.toNat + pageUp (mappingSize headers).toNat ≤ 2^32

/-- A view asked for above the first 64 KiB lies where it was asked for. -/
theorem Placed.base_eq {headers : List Elf32Phdr} {base : Addr} (h : Placed headers base)
    (hlow : 0x10000 ≤ lowest headers) : base.toNat = lowest headers / 65536 * 65536 := by
  have hne : mappingBase headers ≠ 0#32 := by
    intro hz
    have heq := mappingBase_eq headers
    rw [hz] at heq
    simp only [BitVec.toNat_ofNat] at heq
    omega
  rw [h.honoured hne, mappingBase_eq]

end Line2.ElfLoader
