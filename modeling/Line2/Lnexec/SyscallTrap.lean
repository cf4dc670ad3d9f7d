import Line2.Library.Runs
import Line2.Lnexec.SyscallDispatch

/-! The round trip of an `int 80h`: from the trapped context through the
trampoline and the handler back to the guest, for any chain of traps. -/
namespace Line2.Lnexec
open Library.Memory Library.Stack Library.Runs Ia32 Ia32.Asm
variable {σ : Type} (host : HostCode) (link : Link σ)

/-- The registers in the order in which a Linux system call takes its arguments. -/
def trapArgs (s : State) : SysArgs :=
  ⟨s.cpu.ebx,s.cpu.ecx,s.cpu.edx,s.cpu.esi,s.cpu.edi,s.cpu.ebp⟩

/-- The state in which `DispatchSyscall` is entered. -/
def dispatchEntry (s : State) : State :=
  run ((handleSyscall host).take 8) (tryHandleInt80 host.handleSyscall s).2

/-- `SysEntry[EAX]` -/
def trapName (s : State) : String := SysEntry.getD s.cpu.eax.toNat ""

/-- What the handler called at this trap leaves behind. -/
def trapActivation (w : σ) (s : State) : Activation σ (dispatchEntry host s) :=
  link (trapName s) w (trapArgs s) (dispatchEntry host s)

/-- The guest is at an `int 80h` with a number of the table, and the handler does
not store into the trampoline's nine slots. -/
structure TrapReady (w : σ) (s : State) : Prop where
  int80 : pc s 0 = 0xcd#8 ∧ pc s 1 = 0x80#8
  nonneg : 0 ≤ s.cpu.eax.toInt
  inTable : s.cpu.eax.toInt < NSys
  respects : ∀ x, Within (s.cpu.esp - 36#32) 36 x → ¬ (trapActivation host link w s).stored x

private theorem codeSize_handleSyscall : codeSize (handleSyscall host) = 23 := rfl

/-- An instruction of `HandleSyscall` at EIP is executed. -/
private theorem trampolineStep_at (pre post : List Asm) (i : Asm)
    (hcode : handleSyscall host = pre ++ i :: post) (w : σ) (calls : List SysCall) (s : State)
    (heip : s.cpu.eip = host.handleSyscall + BitVec.ofNat 32 (codeSize pre)) :
    trampolineStep host link (.running w calls s) = .running w calls (exec s i) := by
  have hsize : codeSize pre < 23 := by
    have h := codeSize_handleSyscall host
    rw [hcode, codeSize_append, codeSize_cons] at h
    have := i.size_pos
    omega
  have hne : s.cpu.eip ≠ host.dispatchSyscall := heip ▸ host.apart _ hsize
  have hstep := Asm.step_at host.handleSyscall pre post i s (by omega) heip
  simp only [trampolineStep, if_neg hne, hcode, hstep]

private theorem trampoline_straight (pre block post : List Asm)
    (hcode : handleSyscall host = pre ++ block ++ post) (hb : ∀ i ∈ block, i.Straight)
    (w : σ) (calls : List SysCall) (s : State)
    (heip : s.cpu.eip = host.handleSyscall + BitVec.ofNat 32 (codeSize pre)) :
    (trampolineStep host link)^[block.length] (.running w calls s) =
      .running w calls (run block s) := by
  induction block generalizing pre s with
  | nil => rfl
  | cons i block ih =>
    have hi := hb i List.mem_cons_self
    rw [List.length_cons, Function.iterate_succ_apply,
      trampolineStep_at host link pre (block ++ post) i (by simpa using hcode) w calls s heip,
      ih (pre ++ [i]) (by simpa using hcode) (fun j hj => hb j (List.mem_cons_of_mem _ hj))]
    · rfl
    · rw [exec_eip s i hi, heip, codeSize_append, BitVec.ofNat_add, BitVec.add_assoc]
      rfl

/-- Seven pushes and the call, slot by slot from the entry ESP upward. -/
theorem dispatchEntry_spec (s : State) (h : pc s 0 = 0xcd#8 ∧ pc s 1 = 0x80#8) :
    (dispatchEntry host s).cpu =
      { s.cpu with esp := s.cpu.esp - 36#32, eip := host.dispatchSyscall } ∧
    Words (dispatchEntry host s).mem (s.cpu.esp - 36#32)
      [host.handleSyscall + 12#32,s.cpu.eax,s.cpu.ebx,s.cpu.ecx,s.cpu.edx,s.cpu.esi,s.cpu.edi,
        s.cpu.ebp,s.cpu.eip + 2#32] ∧
    ∀ x, ¬ Within (s.cpu.esp - 36#32) 36 x → (dispatchEntry host s).mem x = s.mem x := by
  have htrap : (tryHandleInt80 host.handleSyscall s).2 =
      { cpu := { s.cpu with esp := s.cpu.esp - 4#32, eip := host.handleSyscall }
        mem := write32 s.mem (s.cpu.esp - 4#32) (s.cpu.eip + 2#32) } := by
    simp [tryHandleInt80, h]
  have hw : Words (tryHandleInt80 host.handleSyscall s).2.mem
      (tryHandleInt80 host.handleSyscall s).2.cpu.esp [s.cpu.eip + 2#32] := by
    rw [htrap]
    exact ⟨read32_write32 _ _ _,trivial⟩
  obtain ⟨hcpu,hwords,hmem⟩ := run_pushes [.ebp,.edi,.esi,.edx,.ecx,.ebx,.eax] (by decide)
    (tryHandleInt80 host.handleSyscall s).2 [s.cpu.eip + 2#32] hw (by simp)
  have hentry : dispatchEntry host s = exec (run ([Reg.ebp,.edi,.esi,.edx,.ecx,.ebx,.eax].map push)
      (tryHandleInt80 host.handleSyscall s).2) (call host.dispatchSyscall) := rfl
  rw [hentry]
  generalize run ([Reg.ebp,.edi,.esi,.edx,.ecx,.ebx,.eax].map push)
    (tryHandleInt80 host.handleSyscall s).2 = pushed at *
  rw [htrap] at hcpu hwords hmem
  have hesp : pushed.cpu.esp = s.cpu.esp - 32#32 := by
    rw [hcpu]
    simp only [List.length_cons, List.length_nil]
    bv_omega
  have hesp' : pushed.cpu.esp - 4#32 = s.cpu.esp - 36#32 := by
    rw [hesp]
    bv_omega
  have hret : pushed.cpu.eip + 5#32 = host.handleSyscall + 12#32 := by
    rw [hcpu]
    simp only [List.length_cons, List.length_nil]
    bv_omega
  refine ⟨?_,?_,?_⟩
  · simp only [exec, hesp']
    rw [hcpu]
  · have hpush := hwords.push (pushed.cpu.eip + 5#32) (by simp)
    rw [hesp', hret] at hpush
    simp only [exec, hesp', hret]
    exact hpush
  · intro x hx
    simp only [exec, hesp', hret]
    rw [write32_outside _ _ _ _ (by simp only [Within] at *; bv_omega),
      hmem x (by rw [hesp]; simp only [Within, List.length_cons, List.length_nil] at *; bv_omega)]
    exact write32_outside _ _ _ _ (by simp only [Within] at *; bv_omega)

/-- The six instructions after the call and the `ret`, on a stack that still
holds the eight slots above the popped return address. -/
private theorem epilogue_spec (s : State) (eax ebx ecx edx esi edi ebp eip : Word)
    (hw : Words s.mem s.cpu.esp [eax,ebx,ecx,edx,esi,edi,ebp,eip]) :
    ∃ eflags, exec (run [addImm8 .esp 4#32,pop .ebx,addImm8 .esp 8#32,pop .esi,pop .edi,pop .ebp] s)
      ret = { s with cpu := { s.cpu with
        ebx := ebx, esi := esi, edi := edi, ebp := ebp
        esp := s.cpu.esp + 32#32, eip := eip, eflags := eflags } } := by
  obtain ⟨_,hebx,_,_,hesi,hedi,hebp,heip,_⟩ := hw
  simp only [BitVec.add_assoc, BitVec.reduceAdd] at hebx hesi hedi hebp heip
  simp only [run, List.foldl_cons, List.foldl_nil, exec, Cpu.set, Cpu.get, BitVec.add_assoc,
    BitVec.reduceAdd, hebx, hesi, hedi, hebp, heip]
  exact ⟨_,rfl⟩

/-- The frames and the stores of the handler spare the trampoline's slots, so
they still stand when it returns. -/
private theorem words_after_handler (w : σ) (s : State) (h : TrapReady host link w s)
    {ws : List Word} (hl : ws.length = 9)
    (hw : Words (dispatchEntry host s).mem (s.cpu.esp - 36#32) ws) :
    Words (trapActivation host link w s).mem (s.cpu.esp - 36#32) ws := by
  have hesp : (dispatchEntry host s).cpu.esp = s.cpu.esp - 36#32 := by
    rw [(dispatchEntry_spec host s h.int80).1]
  refine Words.congr (by omega) ?_ hw
  intro x hx
  rw [hl] at hx
  apply (trapActivation host link w s).frame x
  · have hd := (trapActivation host link w s).depth_le
    rw [hesp]
    simp only [Within] at *
    bv_omega
  · exact h.respects x hx

private theorem prologue_steps (w : σ) (s : State) (h : pc s 0 = 0xcd#8 ∧ pc s 1 = 0x80#8) :
    (trampolineStep host link)^[8] (.running w [] (tryHandleInt80 host.handleSyscall s).2) =
      .running w [] (dispatchEntry host s) := by
  let pushes := [Reg.ebp,.edi,.esi,.edx,.ecx,.ebx,.eax].map push
  have heip : (tryHandleInt80 host.handleSyscall s).2.cpu.eip =
      host.handleSyscall + BitVec.ofNat 32 (codeSize []) := by
    simp [tryHandleInt80, h, codeSize]
  have hpushes := trampoline_straight host link [] pushes ((handleSyscall host).drop 7) rfl
    (by simp [pushes, Straight]) w [] _ heip
  have hcall := trampolineStep_at host link pushes ((handleSyscall host).drop 8)
    (call host.dispatchSyscall) rfl w [] (run pushes (tryHandleInt80 host.handleSyscall s).2)
    (by rw [run_eip _ _ (by simp [pushes, Straight]), heip]; simp [codeSize])
  have hlen : pushes.length = 7 := rfl
  rw [hlen] at hpushes
  rw [Function.iterate_succ_apply', hpushes, hcall]
  rfl

/-- The parameters of `DispatchSyscall` are the trapped registers. -/
private theorem dispatchEntry_params (s : State) (h : pc s 0 = 0xcd#8 ∧ pc s 1 = 0x80#8) :
    cdeclParam (dispatchEntry host s) 0 = s.cpu.eax ∧
    (⟨cdeclParam (dispatchEntry host s) 1,cdeclParam (dispatchEntry host s) 2,
      cdeclParam (dispatchEntry host s) 3,cdeclParam (dispatchEntry host s) 4,
      cdeclParam (dispatchEntry host s) 5,cdeclParam (dispatchEntry host s) 6⟩ : SysArgs) =
      trapArgs s := by
  obtain ⟨hcpu,hwords,_⟩ := dispatchEntry_spec host s h
  have hesp : (dispatchEntry host s).cpu.esp = s.cpu.esp - 36#32 := by rw [hcpu]
  have hparam (k : Nat) (hk : k + 1 < 9) : cdeclParam (dispatchEntry host s) k =
      [host.handleSyscall + 12#32,s.cpu.eax,s.cpu.ebx,s.cpu.ecx,s.cpu.edx,s.cpu.esi,s.cpu.edi,
        s.cpu.ebp,s.cpu.eip + 2#32][k+1] := by
    rw [cdeclParam, hesp]
    exact hwords.get (k+1) hk
  refine ⟨hparam 0 (by decide),?_⟩
  rw [hparam 1 (by decide), hparam 2 (by decide), hparam 3 (by decide), hparam 4 (by decide),
    hparam 5 (by decide), hparam 6 (by decide)]
  rfl

/-- Where the trap goes from `DispatchSyscall`. -/
def dispatched (w : σ) (s : State) : DispatchTarget → Trampoline σ
  | .function name =>
    let act := link name w (trapArgs s) (dispatchEntry host s)
    .running act.world [⟨name,trapArgs s⟩] act.returned
  | .outsideTable id => .outsideTable id
  | .exit => .exited

private theorem dispatch_step (w : σ) (s : State) (h : pc s 0 = 0xcd#8 ∧ pc s 1 = 0x80#8) :
    trampolineStep host link (.running w [] (dispatchEntry host s)) =
      dispatched host link w s (dispatchSyscall s.cpu.eax) := by
  obtain ⟨hcpu,_,_⟩ := dispatchEntry_spec host s h
  obtain ⟨hid,hargs⟩ := dispatchEntry_params host s h
  have heip : (dispatchEntry host s).cpu.eip = host.dispatchSyscall := by rw [hcpu]
  simp only [trampolineStep, if_pos heip, hid, hargs, List.nil_append]
  cases dispatchSyscall s.cpu.eax <;> rfl

/-- The trap as far as `DispatchSyscall`, taken whole. -/
theorem trap_dispatched (w : σ) (s : State) (h : pc s 0 = 0xcd#8 ∧ pc s 1 = 0x80#8) :
    (trampolineStep host link)^[9] (.running w [] (tryHandleInt80 host.handleSyscall s).2) =
      dispatched host link w s (dispatchSyscall s.cpu.eax) := by
  rw [Function.iterate_succ_apply', prologue_steps host link w s h, dispatch_step host link w s h]

private theorem trap_dispatched_inside (w : σ) (s : State) (h : TrapReady host link w s) :
    (trampolineStep host link)^[9] (.running w [] (tryHandleInt80 host.handleSyscall s).2) =
      .running (trapActivation host link w s).world [⟨trapName s,trapArgs s⟩]
        (trapActivation host link w s).returned := by
  obtain ⟨hi,hd⟩ := dispatchSyscall_inside h.nonneg h.inTable
  have hname : trapName s = SysEntry[s.cpu.eax.toNat] := by
    rw [trapName, List.getD_eq_getElem?_getD, List.getElem?_eq_getElem hi, Option.getD_some]
  rw [trap_dispatched host link w s h.int80, hd, ← hname]
  rfl

private theorem epilogue_steps (w : σ) (calls : List SysCall) (s : State)
    (heip : s.cpu.eip = host.handleSyscall + 12#32) :
    (trampolineStep host link)^[7] (.running w calls s) = .running w calls
      (exec (run [addImm8 .esp 4#32,pop .ebx,addImm8 .esp 8#32,pop .esi,pop .edi,pop .ebp] s)
        ret) := by
  have hrest := trampoline_straight host link ((handleSyscall host).take 8)
    [addImm8 .esp 4#32,pop .ebx,addImm8 .esp 8#32,pop .esi,pop .edi,pop .ebp] [ret] rfl
    (by simp [Straight]) w calls s heip
  have hret := trampolineStep_at host link ((handleSyscall host).take 14) [] ret rfl w calls
    (run [addImm8 .esp 4#32,pop .ebx,addImm8 .esp 8#32,pop .esi,pop .edi,pop .ebp] s)
    (by
      rw [run_eip _ _ (by simp [Straight]), heip, BitVec.add_assoc]
      rfl)
  rw [Function.iterate_succ_apply']
  exact (congrArg (trampolineStep host link) hrest).trans hret

/-- The whole round trip. ECX and EDX come back as the handler left them. -/
theorem syscallTrap_returns (w : σ) (s : State) (h : TrapReady host link w s) :
    ∃ eflags, syscallTrap host link w s = .running (trapActivation host link w s).world
      [⟨trapName s,trapArgs s⟩]
      { cpu := { s.cpu with
          eax := (trapActivation host link w s).eax
          ecx := (trapActivation host link w s).ecx
          edx := (trapActivation host link w s).edx
          eip := s.cpu.eip + 2#32
          eflags := eflags }
        mem := (trapActivation host link w s).mem } := by
  obtain ⟨hcpu,hwords,_⟩ := dispatchEntry_spec host s h.int80
  obtain ⟨hret,hslots⟩ := words_after_handler host link w s h rfl hwords
  have hesp : (dispatchEntry host s).cpu.esp = s.cpu.esp - 36#32 := by rw [hcpu]
  have hback : (trapActivation host link w s).returned.cpu.eip = host.handleSyscall + 12#32 := by
    simp only [Activation.returned, hesp, hret]
  obtain ⟨eflags,hepi⟩ := epilogue_spec (trapActivation host link w s).returned _ _ _ _ _ _ _ _
    (by simpa only [Activation.returned, hesp] using hslots)
  have hpopped : s.cpu.esp - 36#32 + 4#32 + 32#32 = s.cpu.esp := by bv_omega
  refine ⟨eflags,?_⟩
  rw [syscallTrap, show trampolineSteps = 7 + 9 from rfl, Function.iterate_add_apply,
    trap_dispatched_inside host link w s h, epilogue_steps host link _ _ _ hback, hepi]
  simp only [Activation.returned, hcpu, hpopped]

/-- The flags of the trampoline's two additions to ESP. -/
def trampolineFlags (esp eflags : Word) : Word :=
  addFlags (esp - 24#32) 8#32 false (addFlags (esp - 32#32) 4#32 false eflags)

/-- The flags that come back are those of its last addition. -/
theorem syscallTrap_eflags (w : σ) (s : State) (h : TrapReady host link w s) {w' : σ}
    {calls : List SysCall} {s' : State} (hr : syscallTrap host link w s = .running w' calls s') :
    s'.cpu.eflags = trampolineFlags s.cpu.esp (trapActivation host link w s).eflags := by
  obtain ⟨hcpu,hwords,_⟩ := dispatchEntry_spec host s h.int80
  obtain ⟨hret,_⟩ := words_after_handler host link w s h rfl hwords
  have hesp : (trapActivation host link w s).returned.cpu.esp = s.cpu.esp - 32#32 := by
    simp only [Activation.returned, hcpu]
    bv_omega
  have hback : (trapActivation host link w s).returned.cpu.eip = host.handleSyscall + 12#32 := by
    simp only [Activation.returned, hcpu, hret]
  rw [syscallTrap, show trampolineSteps = 7 + 9 from rfl, Function.iterate_add_apply,
    trap_dispatched_inside host link w s h, epilogue_steps host link _ _ _ hback,
    Trampoline.running.injEq] at hr
  have hlast : s.cpu.esp - 32#32 + 4#32 + 4#32 = s.cpu.esp - 24#32 := by bv_omega
  rw [← hr.2.2]
  simp only [run, List.foldl_cons, List.foldl_nil, exec, Cpu.set, Cpu.get, hesp, hlast]
  rfl

/-- The guest resumes after its `int 80h`, on its own stack, with the result in
EAX and its call-saved registers; memory differs from the trap only in the
frames of the trampoline and the handler and where the handler stored. -/
structure Resumed (s s' : State) (result : Word) (depth : Nat) (stored : Addr → Prop) : Prop where
  eip : s'.cpu.eip = s.cpu.eip + 2#32
  esp : s'.cpu.esp = s.cpu.esp
  eax : s'.cpu.eax = result
  ebx : s'.cpu.ebx = s.cpu.ebx
  esi : s'.cpu.esi = s.cpu.esi
  edi : s'.cpu.edi = s.cpu.edi
  ebp : s'.cpu.ebp = s.cpu.ebp
  mem : ∀ x, ¬ Within (s.cpu.esp - BitVec.ofNat 32 (36 + depth)) (36 + depth) x → ¬ stored x →
    s'.mem x = s.mem x

/-- One trap: exactly one call, of `SysEntry[EAX]` on the six registers, and back. -/
def RoundTrip (w : σ) (s : State) : Prop :=
  ∃ name s', SysEntry[s.cpu.eax.toNat]? = some name ∧
    let act := link name w ⟨s.cpu.ebx,s.cpu.ecx,s.cpu.edx,s.cpu.esi,s.cpu.edi,s.cpu.ebp⟩
      (dispatchEntry host s)
    syscallTrap host link w s = .running act.world
      [⟨name,⟨s.cpu.ebx,s.cpu.ecx,s.cpu.edx,s.cpu.esi,s.cpu.edi,s.cpu.ebp⟩⟩] s' ∧
    Resumed s s' act.eax act.depth act.stored

/-- From one trap to the next; the action is what the guest computes in between. -/
def trapStep (c : σ × State) (guest : State → State) : σ × State :=
  match syscallTrap host link c.1 (guest c.2) with
  | .running w _ s => (w,s)
  | _ => c

theorem trapName_get {s : State} (h0 : 0 ≤ s.cpu.eax.toInt) (h : s.cpu.eax.toInt < NSys) :
    SysEntry[s.cpu.eax.toNat]? = some (trapName s) := by
  obtain ⟨hi,_⟩ := dispatchSyscall_inside h0 h
  rw [trapName, List.getD_eq_getElem?_getD, List.getElem?_eq_getElem hi, Option.getD_some]

private theorem activation_mem (w : σ) (s : State) (h : TrapReady host link w s) (x : Addr)
    (hx : ¬ Within (s.cpu.esp - BitVec.ofNat 32 (36 + (trapActivation host link w s).depth))
      (36 + (trapActivation host link w s).depth) x)
    (hs : ¬ (trapActivation host link w s).stored x) :
    (trapActivation host link w s).mem x = s.mem x := by
  obtain ⟨hcpu,_,hmem⟩ := dispatchEntry_spec host s h.int80
  have hesp : (dispatchEntry host s).cpu.esp = s.cpu.esp - 36#32 := by rw [hcpu]
  have hd := (trapActivation host link w s).depth_le
  rw [(trapActivation host link w s).frame x ?_ hs, hmem x]
  · simp only [Within] at *
    bv_omega
  · rw [hesp]
    simp only [Within] at *
    bv_omega

private theorem roundTrip_of_ready (w : σ) (s : State) (h : TrapReady host link w s) :
    RoundTrip host link w s := by
  obtain ⟨eflags,htrap⟩ := syscallTrap_returns host link w s h
  refine ⟨trapName s,_,trapName_get h.nonneg h.inTable,htrap,?_⟩
  exact ⟨rfl,rfl,rfl,rfl,rfl,rfl,rfl,activation_mem host link w s h⟩

/-- Every trap of every chain of traps makes its round trip. -/
theorem int80_round_trip (w : σ) (s : State) (guests : List (State → State))
    (h : EachStep (trapStep host link) (fun c guest => TrapReady host link c.1 (guest c.2))
      (w,s) guests) :
    EachStep (trapStep host link) (fun c guest => RoundTrip host link c.1 (guest c.2))
      (w,s) guests :=
  h.mono (fun c guest hr => roundTrip_of_ready host link c.1 (guest c.2) hr)

/-- After the trap the guest has the general registers of the trap, but for EAX. -/
def KeepsRegisters (w : σ) (s : State) : Prop :=
  ∃ w' calls s', syscallTrap host link w s = .running w' calls s' ∧
    s'.cpu.ecx = s.cpu.ecx ∧ s'.cpu.edx = s.cpu.edx ∧ s'.cpu.ebx = s.cpu.ebx ∧
    s'.cpu.esp = s.cpu.esp ∧ s'.cpu.ebp = s.cpu.ebp ∧ s'.cpu.esi = s.cpu.esi ∧
    s'.cpu.edi = s.cpu.edi

/-- The same without ECX and EDX, which the trampoline skips when it pops: they
are the handler's. -/
def KeepsCallSaved (w : σ) (s : State) : Prop :=
  ∃ w' calls s', syscallTrap host link w s = .running w' calls s' ∧
    s'.cpu.ebx = s.cpu.ebx ∧ s'.cpu.esp = s.cpu.esp ∧ s'.cpu.ebp = s.cpu.ebp ∧
    s'.cpu.esi = s.cpu.esi ∧ s'.cpu.edi = s.cpu.edi ∧
    s'.cpu.ecx = (trapActivation host link w s).ecx ∧
    s'.cpu.edx = (trapActivation host link w s).edx

theorem call_saved_registers_kept (w : σ) (s : State) (guests : List (State → State))
    (h : EachStep (trapStep host link) (fun c guest => TrapReady host link c.1 (guest c.2))
      (w,s) guests) :
    EachStep (trapStep host link) (fun c guest => KeepsCallSaved host link c.1 (guest c.2))
      (w,s) guests := by
  refine h.mono ?_
  intro c guest hr
  obtain ⟨eflags,htrap⟩ := syscallTrap_returns host link c.1 (guest c.2) hr
  exact ⟨_,_,_,htrap,rfl,rfl,rfl,rfl,rfl,rfl,rfl⟩

section sample

def sampleHost : HostCode := ⟨0x401000#32,0x402000#32,by decide⟩

/-- Returns 0 and leaves its scratch values in ECX and EDX, as cdecl allows. -/
def scratchingHandler : Handler Unit := fun _ _ s =>
  ⟨(),0#32,0x1111#32,0x2222#32,s.cpu.eflags,s.mem,0,fun _ => False,by decide,fun _ _ _ => rfl⟩

/-- `int 80h` at 1000h with EAX = 3, the stack at 100000h. -/
def sampleTrap : State where
  cpu := ⟨3#32,0x11#32,7#32,0x22#32,0x100000#32,0x33#32,0x44#32,0x55#32,0x1000#32,0#32⟩
  mem := store (fun _ => 0#8) 0x1000#32 [0xcd#8,0x80#8]

/-- Another at 2000h with EAX = 45, deeper in the stack. -/
def nextTrap : State where
  cpu := ⟨45#32,0x66#32,0x77#32,0x88#32,0xff000#32,0x99#32,0xaa#32,0xbb#32,0x2000#32,0#32⟩
  mem := store (fun _ => 0#8) 0x2000#32 [0xcd#8,0x80#8]

private theorem sampleTrap_ready :
    TrapReady sampleHost (fun _ => scratchingHandler) () sampleTrap where
  int80 := by decide
  nonneg := by decide
  inTable := by rw [NSys, sysEntry_length]; decide
  respects := fun _ _ h => h

private theorem nextTrap_ready :
    TrapReady sampleHost (fun _ => scratchingHandler) () nextTrap where
  int80 := by decide
  nonneg := by decide
  inTable := by rw [NSys, sysEntry_length]; decide
  respects := fun _ _ h => h

theorem sampleTraps_round_trip :
    EachStep (trapStep sampleHost (fun _ => scratchingHandler))
      (fun c guest => RoundTrip sampleHost (fun _ => scratchingHandler) c.1 (guest c.2))
      ((),sampleTrap) [id,fun _ => nextTrap] :=
  int80_round_trip sampleHost (fun _ => scratchingHandler) () sampleTrap [id,fun _ => nextTrap]
    ⟨sampleTrap_ready,nextTrap_ready,trivial⟩

theorem sampleTraps_call_saved :
    EachStep (trapStep sampleHost (fun _ => scratchingHandler))
      (fun c guest => KeepsCallSaved sampleHost (fun _ => scratchingHandler) c.1 (guest c.2))
      ((),sampleTrap) [id,fun _ => nextTrap] :=
  call_saved_registers_kept sampleHost (fun _ => scratchingHandler) () sampleTrap
    [id,fun _ => nextTrap] ⟨sampleTrap_ready,nextTrap_ready,trivial⟩

/-- A conforming handler that used EDX: the guest finds 2222h instead of its 7. -/
theorem sampleTrap_edx_lost :
    EachStep (trapStep sampleHost (fun _ => scratchingHandler))
      (fun c guest => TrapReady sampleHost (fun _ => scratchingHandler) c.1 (guest c.2))
      ((),sampleTrap) [id] ∧
    ¬ EachStep (trapStep sampleHost (fun _ => scratchingHandler))
      (fun c guest => KeepsRegisters sampleHost (fun _ => scratchingHandler) c.1 (guest c.2))
      ((),sampleTrap) [id] := by
  refine ⟨⟨sampleTrap_ready,trivial⟩,?_⟩
  rintro ⟨⟨w,calls,s',hs,_,hedx,_⟩,_⟩
  obtain ⟨eflags,htrap⟩ := syscallTrap_returns _ _ _ _ sampleTrap_ready
  simp only [id, htrap, Trampoline.running.injEq] at hs
  rw [← hs.2.2] at hedx
  have hne : (0x2222#32 : BitVec 32) ≠ 7#32 := by decide
  exact hne hedx

end sample
end Line2.Lnexec
