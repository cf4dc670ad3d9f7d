import Line2.Library.Simulation
import Line2.Lnexec.Discipline
import Line2.Lnexec.HeapBacking

/-! The break over a run of the machine: no other call and no fault works on it, so it is
where the sys_brk calls lead. -/
namespace Line2.Lnexec
open Library.Memory Library.Locality Library.Runs Library.Simulation Ia32

section functions
variable {τ : Type} (area : AreaService τ) (f : SysFunction) (h : HostAnswers) (w : Services τ)
  (args : SysArgs) (m : Mem)

theorem SysFunction.serve_brk : (f.serve area h w args m).1.2.kernel.brk =
    if f = .sysBrk then brkStep w.kernel.brk ⟨args.arg1,h.reservation⟩ else w.kernel.brk := by
  cases f <;> rfl

theorem SysFunction.serve_thread : (f.serve area h w args m).1.2.thread =
    if f = .sysSetThreadArea then (area h w.thread args.arg1 m).1.2 else w.thread := by
  cases f <;> rfl

end functions

/-- The host's answers to a step that is a system call. -/
def callOf (c : Machine) : MachineAction → Option HostAnswers
  | .fault h _ => if AtInt80 c.guest then some h else none
  | .native _ => none

/-- The sys_brk that a step makes. -/
def brkCall (c : Machine) (a : MachineAction) : Option BrkCall :=
  (callOf c a).bind fun h =>
    if trapFunction c.guest = .sysBrk then some ⟨c.guest.cpu.ebx,h.reservation⟩ else none

section runs
variable {host : HostCode} {reserve : Nat} {c : Machine} {a : MachineAction} {h : HostAnswers}

/-- A system call goes on with what its function came to. -/
theorem call_returned (hd : Disciplined host reserve c a) (hc : callOf c a = some h) :
    let r := (trapFunction c.guest).serve tlsArea h c.world (trapArgs c.guest) c.guest.mem
    (machineStep host c a).world = r.1.2 ∧
      Returned reserve c.guest r.1.1 r.2 (machineStep host c a).guest := by
  have hout := disciplined_outcome hd
  generalize machineStep host c a = c' at hout
  cases hout with
  | native w s code => cases hc
  | syscall hat hs hp hreturn =>
    rw [callOf, if_pos hat] at hc
    obtain rfl := Option.some.inj hc
    exact ⟨rfl,hreturn⟩
  | loadGs hat => rw [callOf, if_neg hat] at hc; cases hc
  | throughGs hat => rw [callOf, if_neg hat] at hc; cases hc

/-- In another step the kernel has something printed at most. -/
theorem quiet_kernel (hd : Disciplined host reserve c a) (hc : callOf c a = none) :
    ∃ text, (machineStep host c a).world.kernel =
      { c.world.kernel with printed := c.world.kernel.printed ++ text } := by
  have hout := disciplined_outcome hd
  generalize machineStep host c a = c' at hout
  cases hout with
  | native w s code => exact ⟨[],by rw [List.append_nil]⟩
  | syscall hat => rw [callOf, if_pos hat] at hc; cases hc
  | loadGs hat => exact ⟨[],by rw [List.append_nil]⟩
  | throughGs hat => exact ⟨_,rfl⟩

theorem brk_step (hd : Disciplined host reserve c a) : (machineStep host c a).world.kernel.brk =
    (brkCall c a).elim c.world.kernel.brk (brkStep c.world.kernel.brk) := by
  rw [brkCall]
  cases hc : callOf c a with
  | none =>
    obtain ⟨text,hk⟩ := quiet_kernel hd hc
    rw [hk]
    rfl
  | some h =>
    rw [(call_returned hd hc).1, SysFunction.serve_brk, Option.bind_some]
    split <;> rfl

/-- The heap of a running guest is backed throughout exactly when each growth that its
sys_brk calls are granted covers the heap. Nothing else in the run matters to it. -/
theorem machine_heap_backed_iff {vm : Vm} {answer : Addr} (hf : Fresh vm answer) (c : Machine)
    (hbrk : c.world.kernel.brk = brkStart vm answer) (actions : List MachineAction)
    (hd : EachStep (machineStep host) (Disciplined host reserve) c actions)
    (hl : EachStep (machineStep host)
      (fun c a => ∀ b, brkCall c a = some b → BrkLegal c.world.kernel.brk b) c actions) :
    Always (machineStep host) (fun c => Backed c.world.kernel.brk) c actions ↔
      EachStep grownStep CoversHeap (brkStart vm answer,0)
        (events (machineStep host) brkCall c actions) := by
  have hstart : Backed (brkStart vm answer) := by
    rw [brkStart_eq vm hf.nonzero]
    exact backed_reserve (s := ⟨0#32,0#32,vm⟩) hf
  have hlegal := each_events (f := fun c => c.world.kernel.brk) (P := BrkLegal)
    (fun _ _ h => brk_step h.1) (fun _ _ b h hb => h.2 b hb) (hd.and hl)
  have hcomponent := always_component (f := fun c => c.world.kernel.brk) (I := Backed)
    (fun _ _ => brk_step) hd
  rw [hbrk] at hlegal hcomponent
  have hghost : ∀ (t : Grown) (b : BrkCall), (grownStep t b).1 = brkStep t.1 b := fun _ _ => rfl
  rw [hcomponent, ← always_image (f := Prod.fst) hghost _ (brkStart vm answer,0)]
  refine always_iff (I := CommittedFrom) (fun _ _ h hb hl => backed_step h hb hl)
    (fun _ _ h _ hl => h.step hl) (brkStart_committed hf) hstart ?_
  exact (each_image (f := Prod.fst) hghost _ (brkStart vm answer,0)).mpr hlegal

end runs

section sample

/-- None of the calls reserves. -/
theorem sampleRun_legal : EachStep (machineStep sampleHost)
    (fun c a => ∀ b, brkCall c a = some b → BrkLegal c.world.kernel.brk b)
    ⟨true,⟨sampleKernel,setupTls⟩,sampleTrap⟩ sampleRun := by
  refine sampleRun_each ?_ ?_ ?_ ?_ ?_ ?_ sampleKernel
  · intro w s code b hb
    cases hb
  · intro w b hb
    simp only [brkCall, callOf, if_pos (sampleCall_at ..)] at hb
    cases hb
  · intro w b hb
    simp only [brkCall, callOf, if_pos (sampleCall_at ..)] at hb
    obtain rfl := Option.some.inj hb
    exact fun hz => absurd hz (by decide)
  · intro w _ b hb
    simp only [brkCall, callOf, if_pos (sampleCall_at ..)] at hb
    cases hb
  · intro w _ b hb
    have hat : ¬ AtInt80 sampleLoadGs := by decide
    simp only [brkCall, callOf, if_neg hat] at hb
    cases hb
  · intro w _ b hb
    have hat : ¬ AtInt80 sampleThroughGs := by decide
    simp only [brkCall, callOf, if_neg hat] at hb
    cases hb

theorem sampleRun_heap_backed_iff :
    (let c : Machine := ⟨true,⟨sampleKernel,setupTls⟩,sampleTrap⟩
    Always (machineStep sampleHost) (fun c => Backed c.world.kernel.brk) c sampleRun ↔
      EachStep grownStep CoversHeap (brkStart emptyVm 0x10000#32,0)
        (events (machineStep sampleHost) brkCall c sampleRun)) :=
  machine_heap_backed_iff emptyVm_fresh ⟨true,⟨sampleKernel,setupTls⟩,sampleTrap⟩ rfl sampleRun
    (sampleRun_disciplined sampleKernel) sampleRun_legal

end sample
end Line2.Lnexec
