import Line2.ElfLoader.Boundaries
import Mathlib.Order.Bounds.Basic

/-! The image's hull over unbounded integers, and when the boundaries that the loop
computes in 32 bits are it. -/
namespace Line2.ElfLoader
open Library.Memory

/-- Where a segment ends, as an unbounded integer. -/
def Elf32Phdr.trueEnd (p : Elf32Phdr) : Nat := p.p_vaddr.toNat + p.p_memsz.toNat

/-- The addresses at which the PT_LOAD segments start. -/
def starts (headers : List Elf32Phdr) : Set Nat := {n | ∃ p ∈ loads headers, p.p_vaddr.toNat = n}

/-- The addresses at which they end. -/
def ends (headers : List Elf32Phdr) : Set Nat := {n | ∃ p ∈ loads headers, p.trueEnd = n}

/-- The hull of the PT_LOAD segments, whatever their order and what else the table has. -/
structure Hull (headers : List Elf32Phdr) (Min Max : Word) : Prop where
  least : IsLeast (starts headers) Min.toNat
  greatest : IsGreatest (ends headers) Max.toNat
  ordered : Min ≤ Max
  stable : ∀ headers', (loads headers').Perm (loads headers) →
    getImageBoundaries headers' = (Min,Max)

/-- What is asked of the boundaries: the hull, or a refusal where it ends past 32 bits. -/
def HullOrRefused (headers : List Elf32Phdr) : Option (Word × Word) → Prop
  | some (Min,Max) => Hull headers Min Max
  | none => ∃ n ∈ ends headers, 2^32 ≤ n

theorem wrappedEnd_toNat (p : Elf32Phdr) : p.wrappedEnd.toNat = p.trueEnd % 2^32 :=
  BitVec.toNat_add ..

/-- The least start and the greatest end of a non-empty list are each one only. -/
theorem boundaries_perm {headers headers' : List Elf32Phdr} (h : loads headers ≠ [])
    (hp : (loads headers').Perm (loads headers)) :
    getImageBoundaries headers' = getImageBoundaries headers := by
  have h' : loads headers' ≠ [] := fun hnil => h (hnil ▸ hp).symm.eq_nil
  obtain ⟨hmin,hmax⟩ := getImageBoundaries_eq headers
  obtain ⟨hmin',hmax'⟩ := getImageBoundaries_eq headers'
  obtain ⟨⟨lo,hlo,heqlo⟩,hbelow⟩ := lowest_spec h
  obtain ⟨⟨lo',hlo',heqlo'⟩,hbelow'⟩ := lowest_spec h'
  obtain ⟨⟨hi,hhi,heqhi⟩,habove⟩ := highest_spec h
  obtain ⟨⟨hi',hhi',heqhi'⟩,habove'⟩ := highest_spec h'
  apply Prod.ext
  · have hle := hbelow lo' (hp.mem_iff.mp hlo')
    have hge := hbelow' lo (hp.mem_iff.mpr hlo)
    apply BitVec.eq_of_toNat_eq
    omega
  · have hle := habove hi' (hp.mem_iff.mp hhi')
    have hge := habove' hi (hp.mem_iff.mpr hhi)
    apply BitVec.eq_of_toNat_eq
    omega

/-- A hull that fits 32 bits has no segment that ends past them. -/
theorem Hull.no_wrap {headers : List Elf32Phdr} {Min Max : Word} (h : Hull headers Min Max)
    {p : Elf32Phdr} (hp : p ∈ loads headers) : p.trueEnd < 2^32 :=
  Nat.lt_of_le_of_lt (h.greatest.2 ⟨p,hp,rfl⟩) Max.isLt

/-- Where no end wraps the loop finds the hull. -/
theorem hull_of_no_wrap {headers : List Elf32Phdr} (h : loads headers ≠ [])
    (hfits : ∀ p ∈ loads headers, p.trueEnd < 2^32) :
    Hull headers (getImageBoundaries headers).1 (getImageBoundaries headers).2 := by
  obtain ⟨hmin,hmax⟩ := getImageBoundaries_eq headers
  obtain ⟨⟨lo,hlo,heqlo⟩,hbelow⟩ := lowest_spec h
  obtain ⟨⟨hi,hhi,heqhi⟩,habove⟩ := highest_spec h
  have hend : ∀ p ∈ loads headers, p.wrappedEnd.toNat = p.trueEnd := by
    intro p hp
    rw [wrappedEnd_toNat, Nat.mod_eq_of_lt (hfits p hp)]
  constructor
  · refine ⟨⟨lo,hlo,by rw [heqlo, hmin]⟩,?_⟩
    rintro n ⟨p,hp,rfl⟩
    rw [hmin]
    exact hbelow p hp
  · refine ⟨⟨hi,hhi,by rw [← hend hi hhi, heqhi, hmax]⟩,?_⟩
    rintro n ⟨p,hp,rfl⟩
    rw [hmax, ← hend p hp]
    exact habove p hp
  · have hstart := hbelow hi hhi
    have hreach := hend hi hhi
    unfold Elf32Phdr.trueEnd at hreach
    rw [BitVec.le_def]
    omega
  · intro headers' hp
    exact boundaries_perm h hp

/-- The loop never refuses a table. It computes the hull of one with a PT_LOAD segment if
and only if no such segment ends past 32 bits. -/
theorem image_hull_iff (headers : List Elf32Phdr) (h : loads headers ≠ []) :
    HullOrRefused headers (some (getImageBoundaries headers)) ↔
      ∀ p ∈ loads headers, p.p_vaddr.toNat + p.p_memsz.toNat < 2^32 :=
  ⟨fun hhull _ hp => hhull.no_wrap hp,hull_of_no_wrap h⟩

section sample

/-- The higher segment comes first. -/
theorem pairSegments_hull_iff : HullOrRefused pairSegments
      (some (getImageBoundaries pairSegments)) ↔
    ∀ p ∈ loads pairSegments, p.p_vaddr.toNat + p.p_memsz.toNat < 2^32 :=
  image_hull_iff pairSegments (by decide)

/-- A segment that ends past 32 bits: the loop answers with a Max below its Min. -/
theorem wrapping_segment_no_hull : ¬ HullOrRefused [tinySegment 0xffff0000#32]
    (some (getImageBoundaries [tinySegment 0xffff0000#32])) := by
  intro hhull
  exact absurd hhull.ordered (by decide)

end sample
end Line2.ElfLoader
