import Line2.Library.Memory
import Line2.Library.Runs

/-! The program break. sys_brk keeps two statics over one reservation that
VirtualAlloc hands out, and commits its pages as the guest asks for more. -/
namespace Line2.Lnexec
open Library.Memory

def pageSize : Nat := 4096

/-- `10 * 1024 * 1024`, the length of the one reservation the heap lives in. -/
def heapSize : Nat := 10 * 1024 * 1024

/-- The page shares an address with the `n` bytes from `a` upward. -/
def Overlaps (page a n : Nat) : Prop :=
  0 < n ∧ page * pageSize < a + n ∧ a < page * pageSize + pageSize

instance (page a n : Nat) : Decidable (Overlaps page a n) :=
  inferInstanceAs (Decidable (_ ∧ _ ∧ _))

/-- What VirtualAlloc knows of the process: its reservations, each a start and a
length, and its committed pages. -/
structure Vm where
  reserved : List (Addr × Nat)
  committed : Nat → Bool

/-- `VirtualAlloc(NULL, size, MEM_RESERVE)`. The system names the place, or refuses with NULL. -/
def Vm.reserve (vm : Vm) (size : Nat) (answer : Addr) : Addr × Vm :=
  if answer = 0#32 then (0#32,vm) else (answer,{vm with reserved := (answer,size) :: vm.reserved})

def Vm.backPages (vm : Vm) (a n : Nat) : Vm :=
  {vm with committed := fun page => vm.committed page || Overlaps page a n}

/-- `VirtualAlloc(a, size, MEM_COMMIT)`: every page the range touches, where one
reservation holds the range; otherwise, and for no bytes at all, NULL. -/
def Vm.commit (vm : Vm) (a : Addr) (size : Word) : Addr × Vm :=
  if size ≠ 0#32 ∧ ∃ r ∈ vm.reserved,
      r.1.toNat ≤ a.toNat ∧ a.toNat + size.toNat ≤ r.1.toNat + r.2 then
    (BitVec.ofNat 32 (a.toNat / pageSize * pageSize),vm.backPages a.toNat size.toNat)
  else (0#32,vm)

/-- The two statics of sys_brk.c and the address space below them. -/
structure Break where
  currentBreak : Addr
  base : Addr
  vm : Vm

def sysBrk (s : Break) (brk answer : Addr) : Addr × Break :=
  let s' :=
    if brk = 0#32 then
      let (memory,vm) := s.vm.reserve heapSize answer
      if memory ≠ 0#32 then ⟨memory,memory,vm⟩ else {s with vm := vm}
    else
      let size := brk - s.currentBreak
      let (memory,vm) := s.vm.commit s.base size
      if memory ≠ 0#32 then {s with currentBreak := brk, vm := vm} else {s with vm := vm}
  (s'.currentBreak,s')

/-- A call: its argument, and where the system would place a reservation. -/
structure BrkCall where
  brk : Addr
  answer : Addr

def brkStep (s : Break) (c : BrkCall) : Break := (sysBrk s c.brk c.answer).2

/-- A place VirtualAlloc may reserve: on the 64 KiB grid, inside the address
space, over no reservation and no committed page. -/
structure Fresh (vm : Vm) (answer : Addr) : Prop where
  nonzero : answer ≠ 0#32
  aligned : answer.toNat % 65536 = 0
  inSpace : answer.toNat + heapSize ≤ 2^32
  apart : ∀ r ∈ vm.reserved,
    r.1.toNat + r.2 ≤ answer.toNat ∨ answer.toNat + heapSize ≤ r.1.toNat
  clean : ∀ page, Overlaps page answer.toNat heapSize → vm.committed page = false

/-- VirtualAlloc answers a reservation with a fresh place or with NULL. -/
def BrkLegal (s : Break) (c : BrkCall) : Prop :=
  c.brk = 0#32 → c.answer = 0#32 ∨ Fresh s.vm c.answer

/-- The process before its first sys_brk, and after a successful sys_brk(NULL). -/
def brkStart (vm : Vm) (answer : Addr) : Break := brkStep ⟨0#32,0#32,vm⟩ ⟨0#32,answer⟩

/-- The base is the start of a reservation of ten megabytes, which no other holds. -/
structure HeapReserved (s : Break) : Prop where
  nonzero : s.base ≠ 0#32
  aligned : s.base.toNat % 65536 = 0
  inSpace : s.base.toNat + heapSize ≤ 2^32
  mem : (s.base,heapSize) ∈ s.vm.reserved
  alone : ∀ r ∈ s.vm.reserved, r.1.toNat ≤ s.base.toNat → s.base.toNat < r.1.toNat + r.2 →
    r = (s.base,heapSize)

/-- How far above the break the argument lies, as the code computes it. -/
def growth (s : Break) (brk : Addr) : Word := brk - s.currentBreak

/-- VirtualAlloc commits what the call asks for. -/
def Granted (s : Break) (brk : Addr) : Prop :=
  growth s brk ≠ 0#32 ∧ (growth s brk).toNat ≤ heapSize

instance (s : Break) (brk : Addr) : Decidable (Granted s brk) :=
  inferInstanceAs (Decidable (_ ∧ _))

def Break.reserve (s : Break) (answer : Addr) : Break :=
  ⟨answer,answer,{s.vm with reserved := (answer,heapSize) :: s.vm.reserved}⟩

def Break.grow (s : Break) (brk : Addr) : Break :=
  ⟨brk,s.base,s.vm.backPages s.base.toNat (growth s brk).toNat⟩

/-- A commit at the base is granted by the heap's own reservation or not at all. -/
private theorem commit_base {s : Break} (h : HeapReserved s) (brk : Addr) :
    (∃ r ∈ s.vm.reserved, r.1.toNat ≤ s.base.toNat ∧
      s.base.toNat + (growth s brk).toNat ≤ r.1.toNat + r.2) ∧ growth s brk ≠ 0#32 ↔
      Granted s brk := by
  constructor
  · rintro ⟨⟨r,hr,hlo,hhi⟩,hz⟩
    have hpos : 0 < (growth s brk).toNat := by bv_omega
    have hrs : r = (s.base,heapSize) := h.alone r hr hlo (by omega)
    subst hrs
    exact ⟨hz,by simpa using hhi⟩
  · rintro ⟨hz,hle⟩
    exact ⟨⟨_,h.mem,Nat.le_refl _,Nat.add_le_add_left hle _⟩,hz⟩

private theorem page_of_base_ne_zero {s : Break} (h : HeapReserved s) :
    BitVec.ofNat 32 (s.base.toNat / pageSize * pageSize) ≠ 0#32 := by
  have hz := h.nonzero
  have ha := h.aligned
  simp only [pageSize]
  bv_omega

/-- Everything a call can do to a heap that is reserved. -/
theorem brkStep_cases {s : Break} (h : HeapReserved s) (c : BrkCall) :
    (c.brk = 0#32 ∧ c.answer = 0#32 ∧ brkStep s c = s) ∨
    (c.brk = 0#32 ∧ c.answer ≠ 0#32 ∧ brkStep s c = s.reserve c.answer) ∨
    (c.brk ≠ 0#32 ∧ ¬ Granted s c.brk ∧ brkStep s c = s) ∨
    (c.brk ≠ 0#32 ∧ Granted s c.brk ∧ brkStep s c = s.grow c.brk) := by
  obtain ⟨brk,answer⟩ := c
  by_cases hb : brk = 0#32
  · by_cases ha : answer = 0#32
    · exact .inl ⟨hb,ha,by simp [brkStep, sysBrk, Vm.reserve, hb, ha]⟩
    · exact .inr (.inl ⟨hb,ha,by simp [brkStep, sysBrk, Vm.reserve, hb, ha, Break.reserve]⟩)
  · have hcommit := commit_base h brk
    simp only [growth] at hcommit
    by_cases hg : Granted s brk
    · have hin := hcommit.mpr hg
      refine .inr (.inr (.inr ⟨hb,hg,?_⟩))
      simp only [brkStep, sysBrk, Vm.commit, if_neg hb, if_pos (And.comm.mp hin)]
      simp only [ne_eq, page_of_base_ne_zero h, not_false_eq_true, if_true]
      rfl
    · refine .inr (.inr (.inl ⟨hb,hg,?_⟩))
      have hout := fun hin => hg (hcommit.mp (And.comm.mp hin))
      simp only [brkStep, sysBrk, Vm.commit, if_neg hb, if_neg hout]
      simp

/-- A fresh reservation becomes the heap. -/
theorem Fresh.heapReserved {s : Break} {answer : Addr} (h : Fresh s.vm answer) :
    HeapReserved (s.reserve answer) where
  nonzero := h.nonzero
  aligned := h.aligned
  inSpace := h.inSpace
  mem := List.mem_cons_self
  alone := by
    intro r hr hlo hhi
    rcases List.mem_cons.mp hr with rfl | hr
    · rfl
    · rcases h.apart r hr with hbelow | habove
      · simp only [Break.reserve] at hhi
        omega
      · simp only [Break.reserve, heapSize] at hlo habove
        omega

theorem HeapReserved.step {s : Break} (h : HeapReserved s) (c : BrkCall) (hl : BrkLegal s c) :
    HeapReserved (brkStep s c) := by
  rcases brkStep_cases h c with ⟨_,_,hs⟩ | ⟨hb,ha,hs⟩ | ⟨_,_,hs⟩ | ⟨_,_,hs⟩
  · rwa [hs]
  · rcases hl hb with hnull | hfresh
    · exact absurd hnull ha
    · rw [hs]
      exact hfresh.heapReserved
  · rwa [hs]
  · rw [hs]
    exact ⟨h.nonzero,h.aligned,h.inSpace,h.mem,h.alone⟩

theorem brkStart_eq (vm : Vm) {answer : Addr} (h : answer ≠ 0#32) :
    brkStart vm answer = Break.reserve ⟨0#32,0#32,vm⟩ answer := by
  simp [brkStart, brkStep, sysBrk, Vm.reserve, h, Break.reserve]

theorem brkStart_reserved {vm : Vm} {answer : Addr} (h : Fresh vm answer) :
    HeapReserved (brkStart vm answer) := by
  rw [brkStart_eq vm h.nonzero]
  exact h.heapReserved (s := ⟨0#32,0#32,vm⟩)

/-- A process without reservations, whose heap the system places at 10000h. -/
def emptyVm : Vm := ⟨[],fun _ => false⟩

theorem emptyVm_fresh : Fresh emptyVm 0x10000#32 where
  nonzero := by decide
  aligned := by decide
  inSpace := by decide
  apart := by simp [emptyVm]
  clean := fun _ _ => rfl

def growTo (brk : Addr) : BrkCall := ⟨brk,0#32⟩

theorem growTo_legal {s : Break} {brk : Addr} (h : brk ≠ 0#32) : BrkLegal s (growTo brk) :=
  fun hz => absurd hz h

end Line2.Lnexec
