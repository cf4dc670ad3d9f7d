import Line2.ElfLoader.Boundaries
import Mathlib.Data.List.Pairwise

/-! A well-formed file is in memory as it says: each segment holds its bytes and
then zeros, and the rest of the view is zero. No read disturbs another's. -/
namespace Line2.ElfLoader
open Library.Memory

/-- The segment's place in memory holds the address. -/
def Elf32Phdr.Covers (p : Elf32Phdr) (x : Addr) : Prop :=
  p.p_vaddr.toNat ≤ x.toNat ∧ x.toNat < p.p_vaddr.toNat + p.p_memsz.toNat

/-- What a linker produces: segments inside the file and the address space, above
the first 64 KiB, no two over one address. -/
structure WellFormed (file : List Byte) (headers : List Elf32Phdr) : Prop where
  nonempty : loads headers ≠ []
  sizes : ∀ p ∈ loads headers, p.p_filesz.toNat ≤ p.p_memsz.toNat
  inSpace : ∀ p ∈ loads headers, p.p_vaddr.toNat + p.p_memsz.toNat < 2^32
  inFile : ∀ p ∈ loads headers, p.p_offset.toNat + p.p_filesz.toNat ≤ file.length
  above : ∀ p ∈ loads headers, 0x10000 ≤ p.p_vaddr.toNat
  apart : (loads headers).Pairwise fun p q => ∀ x, ¬ (p.Covers x ∧ q.Covers x)

/-- The memory holds the image, and the view was asked for exactly around it. -/
structure Faithful (file : List Byte) (headers : List Elf32Phdr) (r : Mapped) : Prop where
  contents : ∀ p ∈ loads headers, ∀ k < p.p_filesz.toNat,
    file[p.p_offset.toNat + k]? = some (r.mem (p.p_vaddr + BitVec.ofNat 32 k))
  cleared : ∀ p ∈ loads headers, ∀ k < p.p_memsz.toNat, p.p_filesz.toNat ≤ k →
    r.mem (p.p_vaddr + BitVec.ofNat 32 k) = 0#8
  rest : ∀ base size, r.view = some (base,size) → ∀ x, Within base size x →
    (∀ p ∈ loads headers, ¬ p.Covers x) → r.mem x = 0#8
  start : ∃ p ∈ loads headers, (∀ q ∈ loads headers, p.p_vaddr.toNat ≤ q.p_vaddr.toNat) ∧
    (mappingBase headers).toNat = p.p_vaddr.toNat / 65536 * 65536
  stop : ∃ p ∈ loads headers,
    (∀ q ∈ loads headers,
      q.p_vaddr.toNat + q.p_memsz.toNat ≤ p.p_vaddr.toNat + p.p_memsz.toNat) ∧
    (mappingBase headers).toNat + (mappingSize headers).toNat =
      p.p_vaddr.toNat + p.p_memsz.toNat

/-- What no read reaches reads as the view did: zero. -/
theorem storeAll_zero {file : List Byte} {headers : List Elf32Phdr} {base x : Addr} {size : Nat}
    (hx : Within base size x)
    (hout : ∀ p ∈ loads headers, ¬ Within p.p_vaddr (p.contents file).length x) (m : Mem) :
    storeAll (zeroed m base size) ((loads headers).map fun p => (p.p_vaddr,p.contents file)) x =
      0#8 := by
  have houtside : ∀ s ∈ (loads headers).map fun p => (p.p_vaddr,p.contents file),
      ¬ Within s.1 s.2.length x := by
    intro s hs
    obtain ⟨q,hq,rfl⟩ := List.mem_map.mp hs
    exact hout q hq
  rw [storeAll_outside houtside]
  exact if_pos hx

section wellFormed
variable {file : List Byte} {headers : List Elf32Phdr} (h : WellFormed file headers)
include h

theorem WellFormed.wrappedEnd {p : Elf32Phdr} (hp : p ∈ loads headers) :
    p.wrappedEnd.toNat = p.p_vaddr.toNat + p.p_memsz.toNat := by
  have hs := h.inSpace p hp
  rw [Elf32Phdr.wrappedEnd, BitVec.toNat_add, Nat.mod_eq_of_lt hs]

theorem WellFormed.lowest : 0x10000 ≤ ElfLoader.lowest headers := by
  obtain ⟨⟨p,hp,hlo⟩,_⟩ := lowest_spec h.nonempty
  rw [← hlo]
  exact h.above p hp

theorem WellFormed.size : (mappingBase headers).toNat + (mappingSize headers).toNat =
    highest headers := by
  obtain ⟨⟨p,hp,hlo⟩,_⟩ := lowest_spec h.nonempty
  have hle := (highest_spec h.nonempty).2 p hp
  have hlt := highest_lt headers
  rw [h.wrappedEnd hp] at hle
  rw [mappingBase_eq, mappingSize_eq]
  omega

theorem WellFormed.contents_length {p : Elf32Phdr} (hp : p ∈ loads headers) :
    (p.contents file).length = p.p_filesz.toNat := by
  have hf := h.inFile p hp
  rw [Elf32Phdr.contents, List.length_take, List.length_drop]
  omega

/-- What a segment's read stores lies in the segment. -/
theorem WellFormed.covers_read {p : Elf32Phdr} (hp : p ∈ loads headers) {x : Addr}
    (hx : Within p.p_vaddr (p.contents file).length x) : p.Covers x := by
  have hs := h.sizes p hp
  have hsp := h.inSpace p hp
  rw [h.contents_length hp] at hx
  simp only [Within, Elf32Phdr.Covers] at *
  constructor <;> bv_omega

theorem WellFormed.covers_offset {p : Elf32Phdr} (hp : p ∈ loads headers) {k : Nat}
    (hk : k < p.p_memsz.toNat) : p.Covers (p.p_vaddr + BitVec.ofNat 32 k) := by
  have hsp := h.inSpace p hp
  simp only [Elf32Phdr.Covers]
  constructor <;> bv_omega

/-- Past its file bytes no read reaches into a segment: neither its own nor another's. -/
theorem WellFormed.no_read_at {p : Elf32Phdr} (hp : p ∈ loads headers) {k : Nat}
    (hk : k < p.p_memsz.toNat) (hf : p.p_filesz.toNat ≤ k) {q : Elf32Phdr}
    (hq : q ∈ loads headers) :
    ¬ Within q.p_vaddr (q.contents file).length (p.p_vaddr + BitVec.ofNat 32 k) := by
  intro hx
  have hp' := h.covers_offset hp hk
  have hq' := h.covers_read hq hx
  by_cases hpq : p = q
  · subst hpq
    have hm := p.p_memsz.isLt
    rw [Within, h.contents_length hp, offset_toNat _ (by omega)] at hx
    omega
  · have hsymm : Std.Symm fun (p q : Elf32Phdr) => ∀ x, ¬ (p.Covers x ∧ q.Covers x) :=
      ⟨fun _ _ hr x hc => hr x hc.symm⟩
    exact h.apart.forall hp hq hpq _ ⟨hp',hq'⟩

theorem WellFormed.stores_apart :
    ((loads headers).map fun p => (p.p_vaddr,p.contents file)).Pairwise fun s t =>
      ∀ x, ¬ (Within s.1 s.2.length x ∧ Within t.1 t.2.length x) := by
  rw [List.pairwise_map]
  refine h.apart.imp_of_mem ?_
  intro p q hp hq hpq x hx
  exact hpq x ⟨h.covers_read hp hx.1,h.covers_read hq hx.2⟩

theorem WellFormed.in_view {base : Addr} (hplaced : Placed headers base) {p : Elf32Phdr}
    (hp : p ∈ loads headers) {k : Nat} (hk : k < p.p_memsz.toNat) :
    Within base (pageUp (mappingSize headers).toNat) (p.p_vaddr + BitVec.ofNat 32 k) := by
  have hbase := hplaced.base_eq h.lowest
  have hsize := h.size
  have hlo := (lowest_spec h.nonempty).2 p hp
  have hhi := (highest_spec h.nonempty).2 p hp
  have hsp := h.inSpace p hp
  have hup := le_pageUp (mappingSize headers).toNat
  rw [h.wrappedEnd hp] at hhi
  rw [mappingBase_eq] at hsize
  simp only [Within]
  bv_omega

/-- Each segment's bytes are there after all the reads. -/
theorem WellFormed.storeAll_contents {p : Elf32Phdr} (hp : p ∈ loads headers) {k : Nat}
    (hk : k < p.p_filesz.toNat) (m : Mem) : file[p.p_offset.toNat + k]? =
      some (storeAll m ((loads headers).map fun p => (p.p_vaddr,p.contents file))
        (p.p_vaddr + BitVec.ofNat 32 k)) := by
  have hlen : ∀ s ∈ (loads headers).map fun p => (p.p_vaddr,p.contents file),
      s.2.length ≤ 2^32 := by
    intro s hs
    obtain ⟨q,hq,rfl⟩ := List.mem_map.mp hs
    have hf := q.p_filesz.isLt
    rw [h.contents_length hq]
    omega
  have hk' : k < (p.contents file).length := by rwa [h.contents_length hp]
  have hstored := storeAll_inside (s := (p.p_vaddr,p.contents file)) h.stores_apart hlen
    (List.mem_map_of_mem hp) hk' m
  have hin := h.inFile p hp
  rw [hstored, List.getElem?_eq_getElem (by omega)]
  simp [Elf32Phdr.contents]

/-- The range asked for begins at the lowest segment's 64 KiB block. -/
theorem WellFormed.range_start : ∃ p ∈ loads headers,
    (∀ q ∈ loads headers, p.p_vaddr.toNat ≤ q.p_vaddr.toNat) ∧
    (mappingBase headers).toNat = p.p_vaddr.toNat / 65536 * 65536 := by
  obtain ⟨⟨p,hp,hlo⟩,hle⟩ := lowest_spec h.nonempty
  exact ⟨p,hp,hlo ▸ hle,by rw [mappingBase_eq, hlo]⟩

/-- It ends where the highest segment does. -/
theorem WellFormed.range_stop : ∃ p ∈ loads headers,
    (∀ q ∈ loads headers,
      q.p_vaddr.toNat + q.p_memsz.toNat ≤ p.p_vaddr.toNat + p.p_memsz.toNat) ∧
    (mappingBase headers).toNat + (mappingSize headers).toNat =
      p.p_vaddr.toNat + p.p_memsz.toNat := by
  obtain ⟨⟨p,hp,hhi⟩,hle⟩ := highest_spec h.nonempty
  rw [h.wrappedEnd hp] at hhi
  refine ⟨p,hp,?_,by rw [h.size, hhi]⟩
  intro q hq
  have hq' := hle q hq
  rwa [h.wrappedEnd hq, ← hhi] at hq'

end wellFormed

/-- A run of Map that returns has mapped a view and read every segment into it. -/
theorem map_returned {elf : ElfFile} {env : MapAnswers} {m : Mem}
    (h : (elf.map env m).returned = true) : ∃ base, env.view = some base ∧
      (elf.map env m).view = some (base,pageUp (mappingSize elf.programHeaders).toNat) ∧
      (elf.map env m).mem = storeAll
        (zeroed m base (pageUp (mappingSize elf.programHeaders).toNat))
        ((loads elf.programHeaders).map fun p => (p.p_vaddr,p.contents elf.file)) := by
  unfold ElfFile.map at *
  cases hv : env.view with
  | none =>
    rw [hv] at h
    cases h
  | some base =>
    rw [hv] at h
    refine ⟨base,rfl,rfl,?_⟩
    simp only [readSegments_stores, segmentsRead_returned h]

/-- Whatever the system answers, a Map that returns leaves the image of a
well-formed file in the view it asked for. -/
theorem image_faithful (surroundings : Surroundings) (file : List Byte) (elf : ElfFile)
    (hopen : openElfFile surroundings file = some elf)
    (hwf : WellFormed file elf.programHeaders) (env : MapAnswers)
    (hplaced : ∀ base, env.view = some base → Placed elf.programHeaders base) (m : Mem)
    (hret : (elf.map env m).returned = true) :
    Faithful file elf.programHeaders (elf.map env m) := by
  obtain ⟨base,hanswer,hview,hmem⟩ := map_returned hret
  have hp := hplaced base hanswer
  rw [openElfFile_file hopen] at hmem
  refine ⟨?_,?_,?_,hwf.range_start,hwf.range_stop⟩
  · intro p hload k hk
    rw [hmem]
    exact hwf.storeAll_contents hload hk _
  · intro p hload k hk hf
    rw [hmem]
    exact storeAll_zero (hwf.in_view hp hload hk) (fun q hq => hwf.no_read_at hload hk hf hq) m
  · intro base' size' hv x hx hout
    rw [hview, Option.some.injEq, Prod.mk.injEq] at hv
    obtain ⟨rfl,rfl⟩ := hv
    rw [hmem]
    exact storeAll_zero hx (fun q hq hr => hout q hq (hwf.covers_read hq hr)) m

section sample

private theorem pairElf_loads : loads pairElf.programHeaders = pairSegments := rfl

set_option maxRecDepth 1024 in
private theorem pairElf_wellFormed : WellFormed pairFile pairElf.programHeaders := by
  constructor <;> rw [pairElf_loads, pairSegments]
  · exact List.cons_ne_nil _ _
  · exact List.forall_mem_cons.mpr ⟨by decide,List.forall_mem_singleton.mpr (by decide)⟩
  · exact List.forall_mem_cons.mpr ⟨by decide,List.forall_mem_singleton.mpr (by decide)⟩
  · exact List.forall_mem_cons.mpr ⟨by decide,List.forall_mem_singleton.mpr (by decide)⟩
  · exact List.forall_mem_cons.mpr ⟨by decide,List.forall_mem_singleton.mpr (by decide)⟩
  · refine List.pairwise_pair.mpr ?_
    rintro x ⟨⟨hlow,_⟩,⟨_,hhigh⟩⟩
    exact absurd (Nat.lt_of_le_of_lt hlow hhigh) (by decide)

private theorem pairElf_placed (base : Addr) (h : grants.view = some base) :
    Placed pairElf.programHeaders base := by
  obtain rfl : 0x10000#32 = base := Option.some.inj h
  exact ⟨by decide,fun _ => by decide,by decide⟩

set_option maxRecDepth 2048 in
private theorem pairFile_opened : openElfFile nowhere pairFile = some pairElf := rfl

set_option maxRecDepth 1024 in
private theorem pairFile_mapped : (pairElf.map grants fun _ => 0xcc#8).returned = true := rfl

theorem pairFile_faithful : Faithful pairFile pairElf.programHeaders
    (pairElf.map grants fun _ => 0xcc#8) :=
  image_faithful nowhere pairFile pairElf pairFile_opened pairElf_wellFormed grants pairElf_placed _
    pairFile_mapped

end sample
end Line2.ElfLoader
