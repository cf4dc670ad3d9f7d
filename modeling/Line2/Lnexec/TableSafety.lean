import Line2.Lnexec.SyscallTrap

/-! The table of system calls against the number in EAX, which is the guest's to
choose. The bounds test joins its two halves with an or, so it refuses nothing. -/
namespace Line2.Lnexec
open Library.Memory Library.Runs Ia32
variable {σ : Type} (host : HostCode) (link : Link σ)

/-- The guest is at an `int 80h`. -/
def AtInt80 (s : State) : Prop := pc s 0 = 0xcd#8 ∧ pc s 1 = 0x80#8

/-- The number is one of the table, as a signed int. -/
def NumberInTable (s : State) : Prop := 0 ≤ s.cpu.eax.toInt ∧ s.cpu.eax.toInt < NSys

/-- A trap calls the entry that EAX indexes, which the table has, or is rejected. -/
def TableSafe (w : σ) (s : State) : Prop :=
  (NumberInTable s ∧ ∃ (name : String) (w' : σ) (s' : State),
    SysEntry[s.cpu.eax.toNat]? = some name ∧
    (trampolineStep host link)^[9] (.running w [] (tryHandleInt80 host.handleSyscall s).2) =
      .running w' [⟨name,trapArgs s⟩] s') ∨
  (trampolineStep host link)^[9] (.running w [] (tryHandleInt80 host.handleSyscall s).2) = .exited

/-- One half of the test or the other holds of every number. -/
private theorem bounds_test (id : Int) : 0 ≤ id ∨ id < NSys := by
  unfold NSys
  omega

/-- Outside the range the table is indexed all the same. -/
theorem dispatchSyscall_outside {SyscallId : Word}
    (h : ¬ (0 ≤ SyscallId.toInt ∧ SyscallId.toInt < NSys)) :
    dispatchSyscall SyscallId = .outsideTable SyscallId.toInt := by
  unfold dispatchSyscall
  simp only [if_pos (bounds_test SyscallId.toInt)]
  split
  · rename_i h0
    have hpast : SysEntry[SyscallId.toInt.toNat]? = none := by
      apply List.getElem?_eq_none
      unfold NSys at h
      omega
    rw [hpast, Option.elim_none]
  · rfl

theorem tableSafe_iff (w : σ) {s : State} (h : AtInt80 s) :
    TableSafe host link w s ↔ NumberInTable s := by
  have htrap := trap_dispatched host link w s h
  unfold TableSafe
  rw [htrap]
  constructor
  · rintro (⟨hn,_⟩ | hexit)
    · exact hn
    · by_contra hn
      rw [dispatchSyscall_outside hn] at hexit
      cases hexit
  · intro hn
    obtain ⟨hi,hd⟩ := dispatchSyscall_inside hn.1 hn.2
    rw [hd]
    exact .inl ⟨hn,_,_,_,List.getElem?_eq_getElem hi,rfl⟩

/-- No trap of a run indexes the table outside its bounds exactly when each finds a
number of the table in EAX. -/
theorem table_safe_iff (w : σ) (s : State) (guests : List (State → State)) :
    EachStep (trapStep host link)
      (fun c guest => AtInt80 (guest c.2) → TableSafe host link c.1 (guest c.2)) (w,s) guests ↔
    EachStep (trapStep host link)
      (fun c guest => AtInt80 (guest c.2) → NumberInTable (guest c.2)) (w,s) guests := by
  constructor
  · refine EachStep.mono ?_
    intro c guest hsafe h
    exact (tableSafe_iff host link c.1 h).mp (hsafe h)
  · refine EachStep.mono ?_
    intro c guest hin h
    exact (tableSafe_iff host link c.1 h).mpr (hin h)

/-- The trap of `sampleTrap` with the first number past the table. -/
def pastTable : State := { sampleTrap with cpu := { sampleTrap.cpu with eax := 351#32 } }

theorem pastTable_indexed_outside :
    ¬ EachStep (trapStep sampleHost (fun _ => scratchingHandler))
      (fun c guest => AtInt80 (guest c.2) →
        TableSafe sampleHost (fun _ => scratchingHandler) c.1 (guest c.2)) ((),pastTable) [id] := by
  rintro ⟨hsafe,_⟩
  have hat : AtInt80 pastTable := ⟨by decide,by decide⟩
  have hlt : pastTable.cpu.eax.toInt < NSys :=
    ((tableSafe_iff sampleHost _ () hat).mp (hsafe hat)).2
  rw [NSys, sysEntry_length] at hlt
  exact absurd hlt (by decide)

end Line2.Lnexec
