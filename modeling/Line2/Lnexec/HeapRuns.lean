import Line2.Lnexec.BrkReference
import Line2.Lnexec.SystemRuns

/-! The guest's heap beside the one it was compiled for, over runs of the machine. The
reference hears of the requests and of nothing else. -/
namespace Line2.Lnexec
open Library.Memory Library.Runs Library.Simulation

/-- The machine, and the heap as the kernel's brk would have it by now. -/
abbrev Beside := Machine × LinuxHeap

def Beside.sides (t : Beside) : Sides := (t.1.world.kernel.brk,t.2)

def besideStep (host : HostCode) (t : Beside) (a : MachineAction) : Beside :=
  (machineStep host t.1 a,(brkCall t.1 a).elim t.2 fun b => (linuxBrk t.2 b.brk).2)

/-- The guest goes on with the kernel's answer in EAX and the break there, and a request
outside the heap left base and pages alone. -/
structure SeesLinux (l : LinuxHeap) (brk : Addr) (c c' : Machine) : Prop where
  answer : c'.guest.cpu.eax = (linuxBrk l brk).1
  place : c'.world.kernel.brk.currentBreak = (linuxBrk l brk).2.brk
  refused : ¬ l.Holds brk → c'.world.kernel.brk.base = c.world.kernel.brk.base ∧
    c'.world.kernel.brk.vm.committed = c.world.kernel.brk.vm.committed

/-- What each sys_brk of a run is to have, of both sides before it and of the call. -/
def EachBrk (host : HostCode) (P : Beside → MachineAction → BrkCall → Prop) (t : Beside)
    (actions : List MachineAction) : Prop :=
  EachStep (besideStep host) (fun t a => ∀ b, brkCall t.1 a = some b → P t a b) t actions

section
variable {host : HostCode} {reserve : Nat} {a : MachineAction}

/-- A sys_brk comes back with what the function answered. -/
theorem brk_answered {c : Machine} {b : BrkCall} (hd : Disciplined host reserve c a)
    (hb : brkCall c a = some b) :
    (machineStep host c a).guest.cpu.eax = (sysBrk c.world.kernel.brk b.brk b.answer).1 := by
  have hout := disciplined_outcome hd
  generalize machineStep host c a = c' at hout
  cases hout with
  | native w s code => cases hb
  | syscall hat hs hp hreturn =>
    rw [brkCall, callOf, if_pos hat, Option.bind_some] at hb
    split at hb
    · rename_i hf
      obtain rfl := Option.some.inj hb
      rw [hf] at hreturn
      rw [hreturn.cpu]
      rfl
    · cases hb
  | loadGs hat => rw [brkCall, callOf, if_neg hat] at hb; cases hb
  | throughGs hat => rw [brkCall, callOf, if_neg hat] at hb; cases hb

/-- The two heaps are run by the guest's requests alone. -/
theorem sides_step (t : Beside) (hd : Disciplined host reserve t.1 a) :
    (besideStep host t a).sides = (brkCall t.1 a).elim t.sides (sidesStep t.sides) := by
  rw [Beside.sides, besideStep, brk_step hd]
  cases brkCall t.1 a <;> rfl

/-- The guest sees the kernel's brk iff the function behaves like it. -/
theorem seesLinux_iff {t : Beside} {b : BrkCall} (hd : Disciplined host reserve t.1 a)
    (hb : brkCall t.1 a = some b) :
    SeesLinux t.2 b.brk t.1 (machineStep host t.1 a) ↔ AnswersAsLinux t.sides b := by
  have hanswer := brk_answered hd hb
  have hbrk := brk_step hd
  rw [hb, Option.elim_some] at hbrk
  constructor
  · rintro ⟨ha,hp,hr⟩
    rw [hbrk] at hp hr
    exact ⟨hanswer.symm.trans ha,hp,hr⟩
  · rintro ⟨ha,hp,hr⟩
    refine ⟨hanswer.trans ha,?_,?_⟩
    · rw [hbrk]
      exact hp
    · rw [hbrk]
      exact hr

/-- Over a whole run the guest cannot tell its heap from the kernel's, exactly when each of
its requests is one of those that sys_brk supports. -/
theorem machine_heap_as_linux_iff {vm : Vm} {answer : Addr} (hf : Fresh vm answer) (c : Machine)
    (hbrk : c.world.kernel.brk = brkStart vm answer) (actions : List MachineAction)
    (hd : EachStep (machineStep host) (Disciplined host reserve) c actions)
    (hl : EachStep (machineStep host)
      (fun c a => ∀ b, brkCall c a = some b → BrkLegal c.world.kernel.brk b) c actions) :
    EachBrk host (fun t a b => SeesLinux t.2 b.brk t.1 (machineStep host t.1 a))
        (c,⟨answer,answer⟩) actions ↔
      EachBrk host (fun t _ b => BrkSupported t.sides b) (c,⟨answer,answer⟩) actions := by
  have hghost : ∀ (t : Beside) (a : MachineAction),
      (besideStep host t a).1 = machineStep host t.1 a := fun _ _ => rfl
  have hboth := (each_image (f := Prod.fst) hghost actions (c,⟨answer,answer⟩)).mpr (hd.and hl)
  have hstart : SameBreak (Beside.sides (c,⟨answer,answer⟩)) := by
    rw [Beside.sides, hbrk]
    exact sidesStart_same hf
  refine each_iff (I := fun t => SameBreak t.sides) ?_ ?_ hstart hboth
  · rintro t a hsame ⟨hda,hla⟩
    refine forall₂_congr fun b hb => ?_
    exact (seesLinux_iff hda hb).trans (supported_iff hsame (hla b hb))
  · -- between two requests neither side moves
    rintro t a hsame ⟨hda,hla⟩ hsupported
    rw [sides_step t hda]
    cases hb : brkCall t.1 a with
    | none => exact hsame
    | some b => exact hsame.step (hla b hb) (hsupported b hb)

end

section sample

theorem sampleRun_heap_as_linux_iff :
    (let c : Machine := ⟨true,⟨sampleKernel,setupTls⟩,sampleTrap⟩
    EachBrk sampleHost (fun t a b => SeesLinux t.2 b.brk t.1 (machineStep sampleHost t.1 a))
        (c,⟨0x10000#32,0x10000#32⟩) sampleRun ↔
      EachBrk sampleHost (fun t _ b => BrkSupported t.sides b)
        (c,⟨0x10000#32,0x10000#32⟩) sampleRun) :=
  machine_heap_as_linux_iff emptyVm_fresh ⟨true,⟨sampleKernel,setupTls⟩,sampleTrap⟩ rfl sampleRun
    (sampleRun_disciplined sampleKernel) sampleRun_legal

end sample
end Line2.Lnexec
