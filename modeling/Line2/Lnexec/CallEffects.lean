import Line2.Lnexec.SystemRuns

/-! What a system call leaves alone, from the fault back to the guest. -/
namespace Line2.Lnexec
open Library.Memory Library.Locality Ia32

/-- The names that some file other than stubs.c defines. -/
def implementedNames : List String := [
  "sys_read", "sys_open", "sys_close", "sys_time", "sys_brk", "sys_uname", "sys_readv",
  "sys_writev", "sys_getuid32", "sys_getgid32", "sys_geteuid32", "sys_getegid32",
  "sys_set_thread_area"]

theorem SysFunction.ofName_stub {name : String} (h : name ∉ implementedNames) :
    ofName name = .stub name := by
  unfold ofName
  split
  all_goals first | rfl | exact absurd (by simp [implementedNames]) h

section
variable (host : HostCode) {reserve : Nat} {h : HostAnswers} {k : Scratch} {w : Services Tls}
  {s : State}

/-- A number whose name only stubs.c defines is answered with -ENOSYS and a line of text, and
the process goes on: no other part of its state is touched, whatever the other registers. -/
theorem unimplemented_call (hat : AtInt80 s) (hs : Spared reserve k s) (hn : NumberInTable s)
    (hname : trapName s ∉ implementedNames) (hk : 36 + k.depth ≤ reserve) :
    ∃ s', machineStep host ⟨true,w,s⟩ (.fault h k) =
        ⟨true,w.print (stubCalled (trapName s) (trapArgs s)),s'⟩ ∧
      Returned reserve s (BitVec.ofInt 32 (-LINUX_ENOSYS)) s.mem s' := by
  have hstub : trapFunction s = .stub (trapName s) := SysFunction.ofName_stub hname
  have hserviceable : Serviceable reserve h k w s := by
    refine ⟨hs,hn,hk,?_⟩
    rw [hstub]
    exact fun x hx => hx.elim
  have htrap := machineStep_trap host hat hserviceable
  rwa [hstub] at htrap

end

section sample

theorem fork_unimplemented : ∃ s', machineStep sampleHost
      ⟨true,⟨sampleKernel,setupTls⟩,sampleCall 2#32 0#32 0#32 0#32⟩
      (.fault sampleAnswers sampleScratch) =
        ⟨true,Services.print ⟨sampleKernel,setupTls⟩ (stubCalled "sys_fork"
          (trapArgs (sampleCall 2#32 0#32 0#32 0#32))),s'⟩ ∧
    Returned 1000 (sampleCall 2#32 0#32 0#32 0#32) (BitVec.ofInt 32 (-LINUX_ENOSYS))
      (sampleCall 2#32 0#32 0#32 0#32).mem s' := by
  have hname : trapName (sampleCall 2#32 0#32 0#32 0#32) = "sys_fork" := rfl
  have hnumber : NumberInTable (sampleCall 2#32 0#32 0#32 0#32) := by
    rw [NumberInTable, NSys, sysEntry_length]
    decide
  rw [← hname]
  refine unimplemented_call sampleHost (sampleCall_at ..) (sampleState_spared ..) hnumber ?_
    (by decide)
  rw [hname]
  decide

end sample
end Line2.Lnexec
