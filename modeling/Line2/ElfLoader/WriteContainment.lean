import Line2.ElfLoader.Boundaries

/-! Where Map writes. The view is sized by p_memsz and the reads by p_filesz, and
nothing relates the two; the view's own base is not looked at either. -/
namespace Line2.ElfLoader
open Library.Memory

/-- Every byte that Map stores lies in the view it got, whether it returns or throws. -/
def Contained (r : Mapped) : Prop :=
  ∀ s ∈ r.stores, ∃ base size, r.view = some (base,size) ∧
    ∀ k < s.2.length, Within base size (s.1 + BitVec.ofNat 32 k)

/-- How many bytes a segment's read takes from the file. -/
def Elf32Phdr.bytesRead (p : Elf32Phdr) (file : List Byte) : Nat :=
  min p.p_filesz.toNat (file.length - p.p_offset.toNat)

/-- The highest end in whole pages; an end of 0 is the end of the address space. -/
def hullEnd (headers : List Elf32Phdr) : Nat :=
  if highest headers = 0 then 2^32 else pageUp (highest headers)

/-- Above the first 64 KiB a read must stop at the hull's end. Below, the system
puts the view where it likes, and the read must happen to lie there. -/
def ReadsInHull (file : List Byte) (headers : List Elf32Phdr) (base : Addr) (p : Elf32Phdr) : Prop :=
  0 < p.bytesRead file →
    if lowest headers < 0x10000 then
      base.toNat ≤ p.p_vaddr.toNat ∧
        p.p_vaddr.toNat + p.bytesRead file ≤ base.toNat + pageUp (highest headers)
    else p.p_vaddr.toNat + p.bytesRead file ≤ hullEnd headers

/-- Once the view is mapped, each segment that Map gets to read is read inside the hull. -/
def StaysInHull (file : List Byte) (headers : List Elf32Phdr) (env : MapAnswers) : Prop :=
  ∀ base, env.view = some base →
    ∀ p ∈ segmentsRead file env.refused 0 headers, ReadsInHull file headers base p

theorem contents_length (p : Elf32Phdr) (file : List Byte) :
    (p.contents file).length = p.bytesRead file := by
  rw [Elf32Phdr.contents, List.length_take, List.length_drop, Elf32Phdr.bytesRead]

/-- All bytes of a range lie in a view that does not wrap iff its ends do. -/
theorem within_range_iff {base a : Addr} {size n : Nat} (hb : base ≠ 0#32)
    (hfit : base.toNat + size ≤ 2^32) :
    (∀ k < n, Within base size (a + BitVec.ofNat 32 k)) ↔
      (0 < n → base.toNat ≤ a.toNat ∧ a.toNat + n ≤ base.toNat + size) := by
  have hpos : 0 < base.toNat := by bv_omega
  have ha := a.isLt
  simp only [Within]
  constructor
  · intro h hn
    have hfirst := h 0 hn
    have hlow : base.toNat ≤ a.toNat ∧ a.toNat < base.toNat + size := by
      constructor <;> bv_omega
    refine ⟨hlow.1,Nat.le_of_not_lt fun hover => ?_⟩
    have hpast := h (base.toNat + size - a.toNat) (by omega)
    bv_omega
  · intro h k hk
    have hin := h (by omega)
    bv_omega

section placed
variable {file : List Byte} {headers : List Elf32Phdr} {base : Addr} (h : Placed headers base)
include h

/-- Above the first 64 KiB the view ends where the hull does. -/
theorem Placed.end_eq (hlow : ¬ lowest headers < 0x10000) :
    base.toNat + pageUp (mappingSize headers).toNat = hullEnd headers := by
  have hfits := h.fits
  have hhi := highest_lt headers
  have hlo := lowest_lt headers
  rw [h.base_eq (Nat.le_of_not_lt hlow)] at *
  rw [mappingSize_eq] at *
  simp only [hullEnd, pageUp] at *
  split <;> omega

omit h in
theorem low_size (hlow : lowest headers < 0x10000) :
    (mappingSize headers).toNat = highest headers := by
  have hhi := highest_lt headers
  rw [mappingSize_eq]
  omega

/-- A segment's bytes land in the view iff its read stays in the hull. -/
theorem Placed.read_iff {p : Elf32Phdr} (hp : p ∈ loads headers) :
    (∀ k < p.bytesRead file,
      Within base (pageUp (mappingSize headers).toNat) (p.p_vaddr + BitVec.ofNat 32 k)) ↔
    ReadsInHull file headers base p := by
  rw [within_range_iff h.nonnull h.fits, ReadsInHull]
  refine imp_congr_right fun _ => ?_
  by_cases hlow : lowest headers < 0x10000
  · rw [if_pos hlow, low_size hlow]
  · rw [if_neg hlow, h.end_eq hlow]
    have hle := (lowest_spec (List.ne_nil_of_mem hp)).2 p hp
    have hbase := h.base_eq (Nat.le_of_not_lt hlow)
    exact and_iff_right (by omega)

end placed

/-- With a view, containment is about the segments that were read. -/
theorem contained_iff_reads {elf : ElfFile} {env : MapAnswers} {base : Addr}
    (hv : env.view = some base) (m : Mem) : Contained (elf.map env m) ↔
      ∀ p ∈ segmentsRead elf.file env.refused 0 elf.programHeaders,
        ∀ k < p.bytesRead elf.file, Within base
          (pageUp (mappingSize elf.programHeaders).toNat) (p.p_vaddr + BitVec.ofNat 32 k) := by
  have hstores : (elf.map env m).stores =
      (segmentsRead elf.file env.refused 0 elf.programHeaders).map
        fun p => (p.p_vaddr,p.contents elf.file) := by
    rw [← readSegments_stores, ElfFile.map, hv]
  have hview : (elf.map env m).view =
      some (base,pageUp (mappingSize elf.programHeaders).toNat) := by
    rw [ElfFile.map, hv]
  unfold Contained
  rw [hstores, hview]
  constructor
  · intro h p hp k hk
    obtain ⟨base',size',heq,hin⟩ := h _ (List.mem_map_of_mem hp)
    rw [Option.some.injEq, Prod.mk.injEq] at heq
    obtain ⟨rfl,rfl⟩ := heq
    exact hin k (by rwa [contents_length])
  · intro h s hs
    obtain ⟨p,hp,rfl⟩ := List.mem_map.mp hs
    refine ⟨_,_,rfl,?_⟩
    intro k hk
    rw [contents_length] at hk
    exact h p hp k hk

/-- Map stores inside its view exactly when the reads it gets to stay in the hull. -/
theorem map_contained_iff (surroundings : Surroundings) (file : List Byte) (elf : ElfFile)
    (hopen : openElfFile surroundings file = some elf) (env : MapAnswers)
    (hplaced : ∀ base, env.view = some base → Placed elf.programHeaders base) (m : Mem) :
    Contained (elf.map env m) ↔ StaysInHull file elf.programHeaders env := by
  have hfile := openElfFile_file hopen
  subst hfile
  cases hv : env.view with
  | none =>
    have hnone : (elf.map env m).stores = [] := by rw [ElfFile.map, hv]
    refine iff_of_true ?_ ?_
    · intro s hs
      rw [hnone] at hs
      cases hs
    · intro base hbase
      rw [hv] at hbase
      cases hbase
  | some base =>
    have hp := hplaced base hv
    have hread : ∀ p ∈ segmentsRead elf.file env.refused 0 elf.programHeaders,
        p ∈ loads elf.programHeaders := fun _ hmem => segmentsRead_subset _ _ _ _ hmem
    rw [contained_iff_reads hv]
    constructor
    · intro h base' hbase p hmem
      obtain rfl : base = base' := Option.some.inj (hv.symm.trans hbase)
      exact (hp.read_iff (hread p hmem)).mp (h p hmem)
    · intro h p hmem
      exact (hp.read_iff (hread p hmem)).mpr (h base hv p hmem)

section sample

/-- The segment's one byte of memory is the last but one of the 64 KiB that are mapped; its
four bytes of file run past them. -/
private theorem tinyElf_placed_one (base : Addr) (h : grants.view = some base) :
    Placed (tinyElf 1#32).programHeaders base := by
  obtain rfl : 0x10000#32 = base := Option.some.inj h
  exact ⟨by decide,fun _ => by decide,by decide⟩

theorem tinyFile_contained_iff : Contained ((tinyElf 1#32).map grants fun _ => 0xcc#8) ↔
    StaysInHull (tinyFile 1#32) (tinyElf 1#32).programHeaders grants :=
  map_contained_iff nowhere (tinyFile 1#32) (tinyElf 1#32) rfl grants tinyElf_placed_one _

/-- Two of the bytes land past the view, at 20000h, and Map returns. -/
theorem tinyFile_escapes : openElfFile nowhere (tinyFile 1#32) = some (tinyElf 1#32) ∧
    (∀ base, grants.view = some base → Placed (tinyElf 1#32).programHeaders base) ∧
    ¬ Contained ((tinyElf 1#32).map grants fun _ => 0xcc#8) := by
  refine ⟨rfl,tinyElf_placed_one,?_⟩
  intro h
  have hview : grants.view = some 0x10000#32 := rfl
  have hread : tinySegment 1#32 ∈
      segmentsRead (tinyFile 1#32) grants.refused 0 (tinyElf 1#32).programHeaders :=
    List.mem_singleton.mpr rfl
  have hin := (contained_iff_reads hview _).mp h (tinySegment 1#32) hread 2 (by decide)
  exact absurd hin (by decide)

end sample
end Line2.ElfLoader
