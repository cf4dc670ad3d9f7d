import Line2.Lnexec.SysBrk

/-! sys_brk beside the kernel's brk. The reference moves the break to whatever
lies in the heap, down as well as up, and answers every other request with the break. -/
namespace Line2.Lnexec
open Library.Memory Library.Runs

/-- The kernel's break over a heap that starts at `start`, as a limit and a place. -/
structure LinuxHeap where
  start : Addr
  brk : Addr

def LinuxHeap.Holds (l : LinuxHeap) (a : Addr) : Prop :=
  l.start.toNat ≤ a.toNat ∧ a.toNat ≤ l.start.toNat + heapSize

instance (l : LinuxHeap) (a : Addr) : Decidable (l.Holds a) :=
  inferInstanceAs (Decidable (_ ∧ _))

def linuxBrk (l : LinuxHeap) (a : Addr) : Addr × LinuxHeap :=
  if l.Holds a then (a,{l with brk := a}) else (l.brk,l)

/-- The code and the reference, called with the same argument. -/
abbrev Sides := Break × LinuxHeap

def sidesStep (t : Sides) (c : BrkCall) : Sides := (brkStep t.1 c,(linuxBrk t.2 c.brk).2)

/-- Both after a successful sys_brk(NULL) that fixed the start of the heap. -/
def sidesStart (vm : Vm) (answer : Addr) : Sides := (brkStart vm answer,⟨answer,answer⟩)

/-- The call answers and moves the break as the reference does, and one outside
the heap leaves the statics and the committed pages alone. -/
def AnswersAsLinux (t : Sides) (c : BrkCall) : Prop :=
  (sysBrk t.1 c.brk c.answer).1 = (linuxBrk t.2 c.brk).1 ∧
  (brkStep t.1 c).currentBreak = (linuxBrk t.2 c.brk).2.brk ∧
  (¬ t.2.Holds c.brk → (brkStep t.1 c).base = t.1.base ∧
    (brkStep t.1 c).vm.committed = t.1.vm.committed)

/-- A repeated sys_brk(NULL) finds no room for a reservation, a request inside the
heap does not shrink it, one outside lies more than the heap's length above the break. -/
def BrkSupported (t : Sides) (c : BrkCall) : Prop :=
  if c.brk = 0#32 then c.answer = 0#32
  else if t.2.Holds c.brk then t.1.currentBreak.toNat ≤ c.brk.toNat
  else heapSize < (growth t.1 c.brk).toNat

/-- The code's break is the reference's, inside the heap that starts at the base. -/
structure SameBreak (t : Sides) : Prop where
  reserved : HeapReserved t.1
  base : t.1.base = t.2.start
  brk : t.1.currentBreak = t.2.brk
  holds : t.2.Holds t.2.brk

theorem SameBreak.not_holds_null {t : Sides} (h : SameBreak t) : ¬ t.2.Holds 0#32 := by
  have hz := h.reserved.nonzero
  rw [h.base] at hz
  simp only [LinuxHeap.Holds]
  bv_omega

/-- A request is granted iff it lies at most the heap's length above the break;
inside the heap these are the growths. -/
theorem SameBreak.granted_iff {t : Sides} (h : SameBreak t) {brk : Addr} (hin : t.2.Holds brk) :
    Granted t.1 brk ↔ t.1.currentBreak.toNat < brk.toNat := by
  have hspace := h.reserved.inSpace
  have hb := h.holds
  rw [← h.brk] at hb
  rw [h.base] at hspace
  simp only [Granted, growth, LinuxHeap.Holds, heapSize] at *
  constructor
  · rintro ⟨hz,hle⟩
    bv_omega
  · intro hlt
    constructor <;> bv_omega

theorem SameBreak.growth_ne_zero {t : Sides} (h : SameBreak t) {brk : Addr}
    (hout : ¬ t.2.Holds brk) : growth t.1 brk ≠ 0#32 := by
  intro hz
  have heq : brk = t.1.currentBreak := by
    simp only [growth] at hz
    bv_omega
  rw [heq, h.brk] at hout
  exact hout h.holds

/-- The answer is the break the call leaves, on both sides. -/
theorem answersAsLinux_iff (t : Sides) (c : BrkCall) : AnswersAsLinux t c ↔
    (brkStep t.1 c).currentBreak = (linuxBrk t.2 c.brk).2.brk ∧
    (¬ t.2.Holds c.brk → (brkStep t.1 c).base = t.1.base ∧
      (brkStep t.1 c).vm.committed = t.1.vm.committed) := by
  have hanswer : (linuxBrk t.2 c.brk).1 = (linuxBrk t.2 c.brk).2.brk := by
    unfold linuxBrk
    split <;> rfl
  rw [AnswersAsLinux, hanswer]
  exact ⟨fun h => h.2,fun h => ⟨h.1,h⟩⟩

/-- A new reservation moves the base, so only a refused one agrees with the reference. -/
private theorem reserve_moves_base {t : Sides} (h : SameBreak t) {answer : Addr}
    (hf : Fresh t.1.vm answer) : answer ≠ t.1.base := by
  rintro rfl
  have hapart := hf.apart _ h.reserved.mem
  simp only [heapSize] at hapart
  omega

/-- A refused call leaves the break, so it agrees unless the reference shrinks the heap. -/
private theorem supported_refused {t : Sides} (h : SameBreak t) {brk : Addr}
    (hg : ¬ Granted t.1 brk) :
    t.1.currentBreak = (linuxBrk t.2 brk).2.brk ↔
      if t.2.Holds brk then t.1.currentBreak.toNat ≤ brk.toNat
      else heapSize < (growth t.1 brk).toNat := by
  by_cases hin : t.2.Holds brk
  · rw [linuxBrk, if_pos hin, if_pos hin]
    rw [h.granted_iff hin] at hg
    constructor
    · rintro heq
      exact Nat.le_of_eq (congrArg BitVec.toNat heq)
    · intro hle
      exact BitVec.eq_of_toNat_eq (Nat.le_antisymm hle (Nat.le_of_not_lt hg))
  · rw [linuxBrk, if_neg hin, if_neg hin]
    have hne := h.growth_ne_zero hin
    exact iff_of_true h.brk (Nat.lt_of_not_le fun hle => hg ⟨hne,hle⟩)

/-- A granted call moves the break, so it agrees only inside the heap. -/
private theorem supported_granted {t : Sides} (h : SameBreak t) {brk : Addr}
    (hg : Granted t.1 brk) :
    brk = (linuxBrk t.2 brk).2.brk ↔
      if t.2.Holds brk then t.1.currentBreak.toNat ≤ brk.toNat
      else heapSize < (growth t.1 brk).toNat := by
  by_cases hin : t.2.Holds brk
  · rw [linuxBrk, if_pos hin, if_pos hin]
    exact iff_of_true rfl (Nat.le_of_lt ((h.granted_iff hin).mp hg))
  · rw [linuxBrk, if_neg hin, if_neg hin]
    refine iff_of_false ?_ (Nat.not_lt_of_le hg.2)
    intro heq
    exact hin (heq ▸ h.holds)

/-- One call agrees with the reference iff it is a supported one. -/
theorem supported_iff {t : Sides} (h : SameBreak t) {c : BrkCall} (hl : BrkLegal t.1 c) :
    AnswersAsLinux t c ↔ BrkSupported t c := by
  rw [answersAsLinux_iff, BrkSupported]
  rcases brkStep_cases h.reserved c with ⟨hz,ha,hs⟩ | ⟨hz,ha,hs⟩ | ⟨hz,hg,hs⟩ | ⟨hz,hg,hs⟩
  · have hout : ¬ t.2.Holds c.brk := hz ▸ h.not_holds_null
    rw [hs, linuxBrk, if_neg hout, if_pos hz]
    exact iff_of_true ⟨h.brk,fun _ => ⟨rfl,rfl⟩⟩ ha
  · have hout : ¬ t.2.Holds c.brk := hz ▸ h.not_holds_null
    rw [hs, if_pos hz]
    refine iff_of_false ?_ ha
    rintro ⟨_,hkept⟩
    have hf : Fresh t.1.vm c.answer := (hl hz).resolve_left ha
    exact reserve_moves_base h hf (hkept hout).1
  · rw [hs, if_neg hz, ← supported_refused h hg]
    exact and_iff_left fun _ => ⟨rfl,rfl⟩
  · rw [hs, if_neg hz, ← supported_granted h hg]
    refine ⟨fun hc => hc.1,fun hc => ⟨hc,?_⟩⟩
    intro hout
    have hcontra := (supported_granted h hg).mp hc
    rw [if_neg hout] at hcontra
    exact absurd hg.2 (Nat.not_le_of_lt hcontra)

theorem LinuxHeap.holds_step {l : LinuxHeap} (h : l.Holds l.brk) (a : Addr) :
    (linuxBrk l a).2.start = l.start ∧ (linuxBrk l a).2.Holds (linuxBrk l a).2.brk := by
  unfold linuxBrk
  split
  · rename_i hin
    exact ⟨rfl,hin⟩
  · exact ⟨rfl,h⟩

theorem SameBreak.step {t : Sides} (h : SameBreak t) {c : BrkCall} (hl : BrkLegal t.1 c)
    (hc : BrkSupported t c) : SameBreak (sidesStep t c) := by
  have hagree := (supported_iff h hl).mpr hc
  obtain ⟨hstart,hholds⟩ := h.holds.elim fun hlo hhi => LinuxHeap.holds_step ⟨hlo,hhi⟩ c.brk
  refine ⟨h.reserved.step c hl,?_,hagree.2.1,hholds⟩
  rw [sidesStep, hstart, ← h.base]
  rcases brkStep_cases h.reserved c with ⟨_,_,hs⟩ | ⟨hz,ha,_⟩ | ⟨_,_,hs⟩ | ⟨_,_,hs⟩
  · rw [hs]
  · rw [BrkSupported, if_pos hz] at hc
    exact absurd hc ha
  · rw [hs]
  · rw [hs]
    rfl

theorem sidesStart_same {vm : Vm} {answer : Addr} (h : Fresh vm answer) :
    SameBreak (sidesStart vm answer) := by
  have hreserved := brkStart_reserved h
  refine ⟨hreserved,?_,?_,Nat.le_refl _,Nat.le_add_right _ _⟩
  · simp [sidesStart, brkStart_eq vm h.nonzero, Break.reserve]
  · simp [sidesStart, brkStart_eq vm h.nonzero, Break.reserve]

/-- Every call of a run agrees with the reference exactly when every call is supported. -/
theorem answers_as_linux_iff (vm : Vm) (answer : Addr) (hf : Fresh vm answer)
    (calls : List BrkCall)
    (hl : EachStep sidesStep (fun t c => BrkLegal t.1 c) (sidesStart vm answer) calls) :
    EachStep sidesStep AnswersAsLinux (sidesStart vm answer) calls ↔
      EachStep sidesStep BrkSupported (sidesStart vm answer) calls :=
  each_iff (I := SameBreak) (fun _ _ h hl => supported_iff h hl)
    (fun _ _ h hl hc => h.step hl hc) (sidesStart_same hf) hl

section sample

/-- The heap at 10000h is grown by a page and then shrunk to its start. -/
def growAndShrink : List BrkCall := [growTo 0x11000#32,growTo 0x10000#32]

private theorem growAndShrink_legal :
    EachStep sidesStep (fun t c => BrkLegal t.1 c) (sidesStart emptyVm 0x10000#32)
      growAndShrink :=
  ⟨growTo_legal (by decide),growTo_legal (by decide),trivial⟩

theorem growAndShrink_answers_iff :
    EachStep sidesStep AnswersAsLinux (sidesStart emptyVm 0x10000#32) growAndShrink ↔
      EachStep sidesStep BrkSupported (sidesStart emptyVm 0x10000#32) growAndShrink :=
  answers_as_linux_iff emptyVm 0x10000#32 emptyVm_fresh growAndShrink growAndShrink_legal

/-- The shrink is refused: sys_brk answers 11000h where the reference moves to 10000h. -/
theorem growAndShrink_refused :
    EachStep sidesStep (fun t c => BrkLegal t.1 c) (sidesStart emptyVm 0x10000#32)
      growAndShrink ∧
    ¬ EachStep sidesStep AnswersAsLinux (sidesStart emptyVm 0x10000#32) growAndShrink := by
  refine ⟨growAndShrink_legal,?_⟩
  rintro ⟨_,⟨hanswer,_⟩,_⟩
  exact absurd hanswer (by decide)

end sample
end Line2.Lnexec
