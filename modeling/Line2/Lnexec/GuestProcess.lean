import Line2.Library.Simulation
import Line2.Lnexec.Discipline

/-! The process that the guest means to be: a system call is one step of its table function,
set_thread_area makes selectors and GS is the processor's. The machine refines it. -/
namespace Line2.Lnexec
open Library.Memory Library.Locality Library.Runs Library.Simulation Ia32

/-- The process by what the guest can tell: the kernel's side, and its own registers and memory. -/
structure GuestProcess where
  world : Services Selectors
  guest : State

inductive ProcessAction
  | native (code : State → State)
  | fault (h : HostAnswers)

def MachineAction.seen : MachineAction → ProcessAction
  | .native code => .native code
  | .fault h _ => .fault h

/-- What the process does. At a fault the `reserve` bytes below ESP are left as the host
likes; besides, a system call leaves ECX, EDX and the flags as it likes, and an XOR or a CMP
through GS the flags. What else the registers, the memory and the kernel's side become, with
what is printed, is laid down. -/
inductive ProcessStep (reserve : Nat) : GuestProcess → ProcessAction → GuestProcess → Prop
  | native (w : Services Selectors) (s : State) (code : State → State) :
    ProcessStep reserve ⟨w,s⟩ (.native code) ⟨w,code s⟩
  | syscall {w w' : Services Selectors} {s s' : State} {h : HostAnswers} {result : Word} {m : Mem}
      (hat : AtInt80 s) (hnumber : NumberInTable s)
      (hserve : (trapFunction s).serve linuxArea h w (trapArgs s) s.mem = ((result,w'),m))
      (hreturn : Returned reserve s result m s') :
    ProcessStep reserve ⟨w,s⟩ (.fault h) ⟨w',s'⟩
  | loadGs {w : Services Selectors} {s s' : State} {h : HostAnswers} {b : Word}
      (hat : pc s 0 = 0x8e#8 ∧ pc s 1 = 0xe8#8)
      (hentry : w.thread.entry (selected (s.cpu.eax.setWidth 16)) = some b)
      (hstack : Alike (Below s reserve) (s.advance 2) s') :
    ProcessStep reserve ⟨w,s⟩ (.fault h)
      ⟨{ w with thread := { w.thread with gs := some b } },s'⟩
  | throughGs {w : Services Selectors} {s s' s'' : State} {h : HostAnswers} {b : Word} {d : Decoded}
      (hdecode : decode (pc s) = some d) (hgs : d.gs = true) (hbase : w.thread.gs = some b)
      (hexec : Executed b d s s') (hstack : Alike (Below s reserve) s' s'') :
    ProcessStep reserve ⟨w,s⟩ (.fault h) ⟨w.print (exceptionPrinted s (some b)),s''⟩

/-- The machine is in the process's state, with TLS slots for its selectors. -/
def Shows (c : Machine) (l : GuestProcess) : Prop :=
  ∃ t, c = ⟨true,⟨l.world.kernel,t⟩,l.guest⟩ ∧ StandsFor t l.world.thread

/-- The functions of the table do the same over slots as over selectors. -/
theorem StandsFor.serve {t : Tls} {g : Selectors} (ht : StandsFor t g) (kernel : Kernel)
    (f : SysFunction) (h : HostAnswers) (args : SysArgs) (m : Mem)
    (hp : f = .sysSetThreadArea → ProperArea t m args.arg1 h.tlsIndex) :
    ∃ result kernel' t' g' m', StandsFor t' g' ∧
      f.serve tlsArea h ⟨kernel,t⟩ args m = ((result,⟨kernel',t'⟩),m') ∧
      f.serve linuxArea h ⟨kernel,g⟩ args m = ((result,⟨kernel',g'⟩),m') := by
  cases f with
  | sysSetThreadArea =>
    obtain ⟨hresult,hmem,hslots⟩ := ht.area h (hp rfl)
    let text := if Exhausted m args.arg1 h.tlsIndex then []
      else segmentMade (readUserDesc (linuxArea h g args.arg1 m).2 args.arg1)
    refine ⟨(linuxArea h g args.arg1 m).1.1,{ kernel with printed := kernel.printed ++ text },_,_,
      (linuxArea h g args.arg1 m).2,hslots,?_,rfl⟩
    simp only [SysFunction.serve, hresult, hmem]
    rfl
  | _ => exact ⟨_,_,t,g,_,ht,rfl,rfl⟩

/-- Each step of the machine is one of the process. -/
theorem shows_step {host : HostCode} {reserve : Nat} {c : Machine} {l : GuestProcess}
    {a : MachineAction} (h : Shows c l) (hd : Disciplined host reserve c a) :
    ∃ l', ProcessStep reserve l a.seen l' ∧ Shows (machineStep host c a) l' := by
  obtain ⟨⟨kernel,g⟩,s⟩ := l
  obtain ⟨t,rfl,ht⟩ := h
  have hout := disciplined_outcome hd
  generalize machineStep host ⟨true,⟨kernel,t⟩,s⟩ a = c' at hout
  cases hout with
  | native w s code => exact ⟨_,.native ⟨kernel,g⟩ s code,t,rfl,ht⟩
  | syscall hat hs hp hreturn =>
    obtain ⟨result,kernel',t',g',m',ht',hserve,hlinux⟩ :=
      ht.serve kernel (trapFunction s) _ (trapArgs s) s.mem hp
    rw [hserve] at hreturn ⊢
    exact ⟨⟨⟨kernel',g'⟩,_⟩,.syscall hat hs.inTable hlinux hreturn,t',rfl,ht'⟩
  | loadGs hat hmov hi ha hstack =>
    obtain ⟨b,hb,ht'⟩ := ht.load hi ha
    exact ⟨_,.loadGs hmov hb hstack,_,rfl,ht'⟩
  | throughGs hat hb hdecode hgs hexec hstack =>
    exact ⟨_,.throughGs hdecode hgs (ht.gsBase hb) hexec hstack,t,rfl,ht⟩

/-- Before its first instruction a process has no entries and nothing in GS. -/
def GuestProcess.start (kernel : Kernel) (s : State) : GuestProcess :=
  ⟨⟨kernel,⟨fun _ => none,none⟩⟩,s⟩

/-- In every run of a disciplined guest the machine is such a process, from the start and
after every step: it has the process's registers and memory and all that the kernel keeps for
it, and its TLS slots stand for the process's selectors. -/
theorem machine_refines_process (host : HostCode) (reserve : Nat) (kernel : Kernel) {t : Tls}
    (s : State) (ht : AtStart t) (actions : List MachineAction)
    (hd : EachStep (machineStep host) (Disciplined host reserve) ⟨true,⟨kernel,t⟩,s⟩ actions) :
    Tracks (machineStep host) (ProcessStep reserve) MachineAction.seen Shows
      ⟨true,⟨kernel,t⟩,s⟩ (GuestProcess.start kernel s) actions :=
  tracks_of_simulates (fun _ _ _ => shows_step) ⟨t,rfl,ht.standsFor⟩ hd

section sample

theorem sampleRun_refines :
    Tracks (machineStep sampleHost) (ProcessStep 1000) MachineAction.seen Shows
      ⟨true,⟨sampleKernel,setupTls⟩,sampleTrap⟩ (GuestProcess.start sampleKernel sampleTrap)
      sampleRun :=
  machine_refines_process sampleHost 1000 sampleKernel sampleTrap setupTls_atStart sampleRun
    (sampleRun_disciplined sampleKernel)

end sample
end Line2.Lnexec
