import Line2.Lnexec.SysBrk

/-! Whether the heap the guest was told of is there. A growth is measured from
the break and committed from the base, so only one that covers the heap backs it. -/
namespace Line2.Lnexec
open Library.Memory Library.Runs

/-- The whole pages that `n` bytes from a page boundary take. -/
def pages (n : Nat) : Nat := (n + (pageSize - 1)) / pageSize

/-- Every byte of `[base, break)` is a committed byte of the reservation at the base. -/
structure Backed (s : Break) : Prop where
  lower : s.base.toNat ≤ s.currentBreak.toNat
  upper : s.currentBreak.toNat ≤ s.base.toNat + heapSize
  reservation : (s.base,heapSize) ∈ s.vm.reserved
  committed : ∀ page, Overlaps page s.base.toNat (s.currentBreak.toNat - s.base.toNat) →
    s.vm.committed page = true
  inside : ∀ page, Overlaps page s.base.toNat (s.currentBreak.toNat - s.base.toNat) →
    s.base.toNat ≤ page * pageSize ∧ page * pageSize + pageSize ≤ s.base.toNat + heapSize

/-- The code's state, with the largest growth granted since the reservation. -/
abbrev Grown := Break × Nat

def largestGrowth (t : Grown) (c : BrkCall) : Nat :=
  if c.brk = 0#32 then if c.answer = 0#32 then t.2 else 0
  else if Granted t.1 c.brk then max t.2 (growth t.1 c.brk).toNat else t.2

def grownStep (t : Grown) (c : BrkCall) : Grown := (brkStep t.1 c,largestGrowth t c)

/-- A granted growth must end inside the reservation, and the heap it leaves must
take no more pages than the largest growth so far, this one included. -/
def CoversHeap (t : Grown) (c : BrkCall) : Prop :=
  c.brk ≠ 0#32 → Granted t.1 c.brk →
    t.1.currentBreak.toNat + (growth t.1 c.brk).toNat ≤ t.1.base.toNat + heapSize ∧
    pages (c.brk.toNat - t.1.base.toNat) ≤ pages (max t.2 (growth t.1 c.brk).toNat)

/-- The committed pages of the heap are those of the largest growth. -/
structure CommittedFrom (t : Grown) : Prop where
  reserved : HeapReserved t.1
  pages : ∀ page, Overlaps page t.1.base.toNat heapSize →
    (t.1.vm.committed page = true ↔ Overlaps page t.1.base.toNat t.2)

/-- From a page boundary, one range touches the pages of another iff it takes no more of them. -/
theorem pages_le_iff {a : Nat} (ha : a % pageSize = 0) (n m : Nat) :
    (∀ page, Overlaps page a n → Overlaps page a m) ↔ pages n ≤ pages m := by
  simp only [Overlaps, pages, pageSize] at *
  constructor
  · intro h
    have hlast := h ((a + n - 1) / 4096)
    omega
  · intro h page hp
    omega

theorem overlaps_max (page a n m : Nat) :
    Overlaps page a (max n m) ↔ Overlaps page a n ∨ Overlaps page a m := by
  simp only [Overlaps]
  omega

theorem HeapReserved.page_aligned {s : Break} (h : HeapReserved s) :
    s.base.toNat % pageSize = 0 := by
  have ha := h.aligned
  simp only [pageSize]
  omega

/-- The pages of a heap that ends inside the reservation are the reservation's. -/
theorem HeapReserved.page_inside {s : Break} (h : HeapReserved s) {n : Nat} (hn : n ≤ heapSize)
    {page : Nat} (hp : Overlaps page s.base.toNat n) :
    s.base.toNat ≤ page * pageSize ∧ page * pageSize + pageSize ≤ s.base.toNat + heapSize := by
  have ha := h.aligned
  simp only [Overlaps, pageSize, heapSize] at *
  omega

theorem Overlaps.mono {page a n m : Nat} (h : Overlaps page a n) (hnm : n ≤ m) :
    Overlaps page a m := by
  simp only [Overlaps] at *
  omega

/-- The break after a granted growth: it wraps only past the reservation. -/
theorem grown_break {s : Break} (h : HeapReserved s) (hb : Backed s) {brk : Addr}
    (hg : Granted s brk) :
    (s.base.toNat ≤ brk.toNat ∧ brk.toNat ≤ s.base.toNat + heapSize) ↔
      (brk ≠ 0#32 ∧ s.currentBreak.toNat + (growth s brk).toNat ≤ s.base.toNat + heapSize) := by
  have hspace := h.inSpace
  have hz := h.nonzero
  have hlow := hb.lower
  have hup := hb.upper
  have hle := hg.2
  simp only [growth, heapSize] at *
  constructor
  · intro hin
    constructor <;> bv_omega
  · intro hin
    bv_omega

theorem backed_reserve {s : Break} {answer : Addr} (hf : Fresh s.vm answer) :
    Backed (s.reserve answer) where
  lower := Nat.le_refl _
  upper := Nat.le_add_right _ _
  reservation := hf.heapReserved.mem
  committed := by
    intro page hp
    simp only [Break.reserve, Overlaps] at hp
    omega
  inside := fun _ hp => hf.heapReserved.page_inside (Nat.zero_le _)
    (by simpa [Break.reserve] using hp)

private theorem backed_grow {t : Grown} (h : CommittedFrom t) (hb : Backed t.1) {brk : Addr}
    (hz : brk ≠ 0#32) (hg : Granted t.1 brk) :
    Backed (t.1.grow brk) ↔
      t.1.currentBreak.toNat + (growth t.1 brk).toNat ≤ t.1.base.toNat + heapSize ∧
      pages (brk.toNat - t.1.base.toNat) ≤ pages (max t.2 (growth t.1 brk).toNat) := by
  have hbreak := grown_break h.reserved hb hg
  rw [← pages_le_iff h.reserved.page_aligned]
  constructor
  · intro hb'
    have hin : t.1.base.toNat ≤ brk.toNat ∧ brk.toNat ≤ t.1.base.toNat + heapSize :=
      ⟨hb'.lower,hb'.upper⟩
    refine ⟨(hbreak.mp hin).2,?_⟩
    intro page hp
    have hc := hb'.committed page hp
    have hheap : Overlaps page t.1.base.toNat heapSize := hp.mono (by omega)
    simp only [Break.grow, Vm.backPages, Bool.or_eq_true, decide_eq_true_eq] at hc
    rw [overlaps_max]
    exact hc.imp_left (h.pages page hheap).mp
  · rintro ⟨hend,hpages⟩
    have hin := hbreak.mpr ⟨hz,hend⟩
    have hsize : brk.toNat - t.1.base.toNat ≤ heapSize := by omega
    refine ⟨hin.1,hin.2,h.reserved.mem,?_,?_⟩
    · intro page hp
      have hheap : Overlaps page t.1.base.toNat heapSize := Overlaps.mono hp hsize
      have hmax := (overlaps_max ..).mp (hpages page hp)
      simp only [Break.grow, Vm.backPages, Bool.or_eq_true, decide_eq_true_eq]
      exact hmax.imp_left (h.pages page hheap).mpr
    · exact fun page hp => h.reserved.page_inside hsize hp

/-- One call keeps a backed heap backed iff it meets the condition. -/
theorem backed_step {t : Grown} (h : CommittedFrom t) (hb : Backed t.1) {c : BrkCall}
    (hl : BrkLegal t.1 c) : Backed (brkStep t.1 c) ↔ CoversHeap t c := by
  rcases brkStep_cases h.reserved c with ⟨hz,_,hs⟩ | ⟨hz,ha,hs⟩ | ⟨_,hg,hs⟩ | ⟨hz,hg,hs⟩
  · rw [hs]
    exact iff_of_true hb (fun hnz => absurd hz hnz)
  · rw [hs]
    rcases hl hz with hnull | hfresh
    · exact absurd hnull ha
    · exact iff_of_true (backed_reserve hfresh) (fun hnz => absurd hz hnz)
  · rw [hs]
    exact iff_of_true hb (fun _ hgr => absurd hgr hg)
  · rw [hs, backed_grow h hb hz hg]
    exact ⟨fun hc _ _ => hc,fun hc => hc hz hg⟩

theorem CommittedFrom.step {t : Grown} (h : CommittedFrom t) {c : BrkCall}
    (hl : BrkLegal t.1 c) : CommittedFrom (grownStep t c) := by
  refine ⟨h.reserved.step c hl,?_⟩
  rcases brkStep_cases h.reserved c with ⟨hz,ha,hs⟩ | ⟨hz,ha,hs⟩ | ⟨hz,hg,hs⟩ | ⟨hz,hg,hs⟩
  · simpa only [grownStep, largestGrowth, if_pos hz, if_pos ha, hs] using h.pages
  · simp only [grownStep, largestGrowth, if_pos hz, if_neg ha, hs]
    rcases hl hz with hnull | hfresh
    · exact absurd hnull ha
    · intro page hp
      have hclean : t.1.vm.committed page = false := hfresh.clean page hp
      simp [Break.reserve, hclean, Overlaps]
  · simpa only [grownStep, largestGrowth, if_neg hz, if_neg hg, hs] using h.pages
  · simp only [grownStep, largestGrowth, if_neg hz, if_pos hg, hs]
    intro page hp
    simp only [Break.grow, Vm.backPages, Bool.or_eq_true, decide_eq_true_eq, overlaps_max]
    rw [h.pages page hp]

theorem brkStart_committed {vm : Vm} {answer : Addr} (h : Fresh vm answer) :
    CommittedFrom (brkStart vm answer,0) := by
  refine ⟨brkStart_reserved h,?_⟩
  rw [brkStart_eq vm h.nonzero]
  intro page hp
  have hclean : vm.committed page = false := h.clean page hp
  simp [Break.reserve, hclean, Overlaps]

/-- The heap is backed throughout a run exactly when each growth covers it. -/
theorem heap_backed_iff (vm : Vm) (answer : Addr) (hf : Fresh vm answer) (calls : List BrkCall)
    (hl : EachStep grownStep (fun t c => BrkLegal t.1 c) (brkStart vm answer,0) calls) :
    Always grownStep (fun t => Backed t.1) (brkStart vm answer,0) calls ↔
      EachStep grownStep CoversHeap (brkStart vm answer,0) calls := by
  have hstart : Backed (brkStart vm answer) := by
    rw [brkStart_eq vm hf.nonzero]
    exact backed_reserve (s := ⟨0#32,0#32,vm⟩) hf
  exact always_iff (I := CommittedFrom) (fun _ _ h hb hl => backed_step h hb hl)
    (fun _ _ h _ hl => h.step hl) (brkStart_committed hf) hstart hl

section sample

/-- Two growths by 2000h and 1000h bytes, as __sbrk asks for them. -/
def secondGrowth : List BrkCall := [growTo 0x12000#32,growTo 0x13000#32]

theorem secondGrowth_legal :
    EachStep grownStep (fun t c => BrkLegal t.1 c) (brkStart emptyVm 0x10000#32,0) secondGrowth :=
  ⟨growTo_legal (by decide),growTo_legal (by decide),trivial⟩

theorem secondGrowth_backed_iff :
    Always grownStep (fun t => Backed t.1) (brkStart emptyVm 0x10000#32,0) secondGrowth ↔
      EachStep grownStep CoversHeap (brkStart emptyVm 0x10000#32,0) secondGrowth :=
  heap_backed_iff emptyVm 0x10000#32 emptyVm_fresh secondGrowth secondGrowth_legal

/-- The second growth commits the first page again: 12000h stays without memory. -/
theorem secondGrowth_leaves_hole :
    EachStep grownStep (fun t c => BrkLegal t.1 c) (brkStart emptyVm 0x10000#32,0) secondGrowth ∧
    ¬ Always grownStep (fun t => Backed t.1) (brkStart emptyVm 0x10000#32,0) secondGrowth := by
  refine ⟨secondGrowth_legal,?_⟩
  rintro ⟨_,_,hbacked⟩
  have hc := hbacked.committed 0x12 (by decide)
  exact absurd hc (by decide)

end sample
end Line2.Lnexec
