import Line2.ElfLoader.ImageFidelity
import Line2.ElfLoader.WriteContainment
import Line2.Library.Overlay

/-! The whole memory that Map leaves, for any table: segments may lie over one another,
run past the file or be refused. -/
namespace Line2.ElfLoader
open Library.Memory Library.Overlay

/-- The byte of the file that a segment has for an address. -/
def Elf32Phdr.byteAt (p : Elf32Phdr) (file : List Byte) (x : Addr) : Option Byte :=
  let k := (x - p.p_vaddr).toNat
  if k < p.p_filesz.toNat then file[p.p_offset.toNat + k]? else none

/-- Of the segments with a byte for an address the last in the table has its way. -/
def imageByte (file : List Byte) : List Elf32Phdr → Addr → Option Byte
  | [], _ => none
  | p :: segments, x => (imageByte file segments x).or (p.byteAt file x)

/-- What the loop stores for segments. -/
def segmentStores (file : List Byte) (segments : List Elf32Phdr) : List (Addr × List Byte) :=
  segments.map fun p => (p.p_vaddr,p.contents file)

theorem contents_getElem? (p : Elf32Phdr) (file : List Byte) (x : Addr) :
    (p.contents file)[(x - p.p_vaddr).toNat]? = p.byteAt file x := by
  rw [Elf32Phdr.contents, List.getElem?_take, List.getElem?_drop, Elf32Phdr.byteAt]

theorem topmost_segmentStores (file : List Byte) (segments : List Elf32Phdr) (x : Addr) :
    topmost (segmentStores file segments) x = imageByte file segments x := by
  induction segments with
  | nil => rfl
  | cons p segments ih =>
    rw [imageByte, ← ih, ← contents_getElem?]
    rfl

/-- The loop reads the first PT_LOAD segments, and all of them iff it runs through. -/
theorem segmentsRead_take (file : List Byte) (refused : Nat → Bool) (i : Nat)
    (headers : List Elf32Phdr) : ∃ n ≤ (loads headers).length,
      segmentsRead file refused i headers = (loads headers).take n ∧
      ((readSegments file refused i headers).1 = true ↔ n = (loads headers).length) := by
  induction headers generalizing i with
  | nil => exact ⟨0,Nat.le_refl 0,rfl,iff_of_true rfl rfl⟩
  | cons p headers ih =>
    obtain ⟨n,hn,hread,hall⟩ := ih (i + 1)
    by_cases hp : p.p_type = PT_LOAD
    · rw [loads_load hp]
      simp only [readSegments, segmentsRead, if_pos hp]
      cases ha : attempt file refused i p with
      | none =>
        exact ⟨0,Nat.zero_le _,rfl,iff_of_false Bool.false_ne_true (Nat.succ_ne_zero _).symm⟩
      | some bytes =>
        refine ⟨n + 1,Nat.succ_le_succ hn,?_,?_⟩
        · rw [if_neg (Option.some_ne_none bytes), hread, List.take_succ_cons]
        · rw [List.length_cons, Nat.add_right_cancel_iff]
          exact hall
    · rw [loads_other hp]
      simp only [readSegments, segmentsRead, if_neg hp]
      exact ⟨n,hn,hread,hall⟩

/-- Every byte of memory after Map, whether it returns or throws. It has read the first `n`
segments; where one of them has a byte the last of those stands, the rest of the view is
zero, and outside it memory is as it was but for segments that reach there. -/
theorem map_memory (elf : ElfFile) (env : MapAnswers) (m : Mem) :
    match env.view with
    | none => (elf.map env m).mem = m
    | some base => ∃ n ≤ (loads elf.programHeaders).length,
      ((elf.map env m).returned = true ↔ n = (loads elf.programHeaders).length) ∧
      ∀ x, (elf.map env m).mem x =
        (imageByte elf.file ((loads elf.programHeaders).take n) x).getD
          (if Within base (pageUp (mappingSize elf.programHeaders).toNat) x then 0#8 else m x) := by
  cases hv : env.view with
  | none =>
    dsimp only
    rw [ElfFile.map, hv]
  | some base =>
    obtain ⟨n,hn,hread,hall⟩ := segmentsRead_take elf.file env.refused 0 elf.programHeaders
    refine ⟨n,hn,?_,?_⟩
    · rw [ElfFile.map, hv]
      exact hall
    · intro x
      rw [ElfFile.map, hv]
      dsimp only
      rw [readSegments_stores, hread, storeAll_topmost]
      exact congrArg (Option.getD · _) (topmost_segmentStores ..)

/-- The loop over the headers may take two of them in either order. -/
private theorem widen_comm (b : Word × Word) (p q : Elf32Phdr) :
    widen (widen b p) q = widen (widen b q) p := by
  obtain ⟨Min,Max⟩ := b
  by_cases hp : p.p_type = PT_LOAD
  · by_cases hq : q.p_type = PT_LOAD
    · simp only [widen, if_pos hp, if_pos hq]
      refine Prod.ext ?_ ?_
      · dsimp only
        split_ifs <;> bv_omega
      · dsimp only
        split_ifs <;> bv_omega
    · simp only [widen, if_pos hp, if_neg hq]
  · simp only [widen, if_neg hp]

theorem getImageBoundaries_perm {headers headers' : List Elf32Phdr} (h : headers.Perm headers') :
    getImageBoundaries headers' = getImageBoundaries headers :=
  (h.foldl_eq' (fun p _ q _ b => widen_comm b p q) _).symm

/-- Segments whose bytes of the file lie apart make the same image in any order of the
table, in the same view. -/
theorem map_order {elf elf' : ElfFile} (hfile : elf'.file = elf.file)
    (hperm : elf.programHeaders.Perm elf'.programHeaders)
    (hapart : Apart (segmentStores elf.file (loads elf.programHeaders))) {env env' : MapAnswers}
    (hview : env'.view = env.view) (m : Mem) (h : (elf.map env m).returned = true)
    (h' : (elf'.map env' m).returned = true) :
    (elf'.map env' m).mem = (elf.map env m).mem ∧
    (elf'.map env' m).view = (elf.map env m).view := by
  obtain ⟨base,hbase,hv,hmem⟩ := map_returned h
  obtain ⟨base',hbase',hv',hmem'⟩ := map_returned h'
  obtain rfl : base = base' := Option.some.inj (hbase.symm.trans (hview.symm.trans hbase'))
  have hsize : mappingSize elf'.programHeaders = mappingSize elf.programHeaders := by
    rw [mappingSize, mappingSize, getImageBoundaries_perm hperm]
  have hstores : (segmentStores elf.file (loads elf.programHeaders)).Perm
      (segmentStores elf.file (loads elf'.programHeaders)) :=
    (hperm.filter _).map _
  rw [hmem, hmem', hv, hv', hsize, hfile]
  exact ⟨storeAll_perm hapart hstores _,rfl⟩

section sample

/-- A second segment, of the same bytes, in the page before the first. -/
def nextSegment : Elf32Phdr := ⟨PT_LOAD,84#32,0x1effe#32,0#32,4#32,8#32,6#32,0#32⟩

def twoSegments : ElfFile :=
  { tinyElf 8#32 with programHeaders := [tinySegment 8#32,nextSegment] }

def swappedSegments : ElfFile :=
  { tinyElf 8#32 with programHeaders := [nextSegment,tinySegment 8#32] }

theorem swapped_same_image :
    (swappedSegments.map grants fun _ => 0xcc#8).mem =
      (twoSegments.map grants fun _ => 0xcc#8).mem ∧
    (swappedSegments.map grants fun _ => 0xcc#8).view =
      (twoSegments.map grants fun _ => 0xcc#8).view := by
  have hfile : swappedSegments.file = twoSegments.file := rfl
  have hperm : twoSegments.programHeaders.Perm swappedSegments.programHeaders := .swap ..
  have hapart : Apart (segmentStores (tinyFile 8#32) [tinySegment 8#32,nextSegment]) := by
    refine List.pairwise_cons.mpr ⟨List.forall_mem_singleton.mpr ?_,List.pairwise_singleton _ _⟩
    rintro x ⟨hx,hx'⟩
    have hin : Within 0x1fffe#32 4 x := hx
    have hin' : Within 0x1effe#32 4 x := hx'
    simp only [Within] at hin hin'
    bv_omega
  have hret : (twoSegments.map grants fun _ => 0xcc#8).returned = true := by decide
  have hret' : (swappedSegments.map grants fun _ => 0xcc#8).returned = true := by decide
  exact map_order hfile hperm hapart rfl _ hret hret'

end sample
end Line2.ElfLoader
