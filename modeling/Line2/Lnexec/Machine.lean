import Line2.Lnexec.HandlerLocality
import Line2.Lnexec.SyscallFrame

/-! The machine that the guest runs on: its own code from one fault to the next, and at a
fault the exception handler, the trampoline and the functions of the table. All of them
work on the guest's stack. -/
namespace Line2.Lnexec
open Library.Memory Library.Locality Library.Runs Ia32

instance (s : State) : Decidable (AtInt80 s) := inferInstanceAs (Decidable (_ ∧ _))

/-- What a fault leaves behind apart from its effect. The system puts its record of the
exception below ESP and runs the handler there; the function that a trap calls leaves the
call-clobbered registers, the flags and its frames. `stray` is what comes of the host's code
once it goes astray, if it ever gets back to the guest. -/
structure Scratch where
  ecx : Word
  edx : Word
  eflags : Word
  pushed : Nat
  pushed_le : pushed ≤ 2^32
  record : Mem
  depth : Nat
  depth_le : depth + 36 ≤ 2^32
  frames : Mem
  stray : Option (Services Tls × State)

/-- The guest as the handler finds it. -/
def Scratch.enter (k : Scratch) (s : State) : State :=
  { s with mem := fun x =>
      if Within (s.cpu.esp - BitVec.ofNat 32 k.pushed) k.pushed x then k.record x else s.mem x }

/-- A function of the table as the compiler left it. -/
def SysFunction.compiled (f : SysFunction) (h : HostAnswers) (k : Scratch) :
    Handler (Services Tls) := fun w args s =>
  let r := f.serve tlsArea h w args s.mem
  { world := r.1.2
    eax := r.1.1
    ecx := k.ecx
    edx := k.edx
    eflags := k.eflags
    mem := fun x =>
      if Within (s.cpu.esp - BitVec.ofNat 32 k.depth) k.depth x then k.frames x else r.2 x
    depth := k.depth
    stored := fun x => r.2 x ≠ s.mem x
    depth_le := k.depth_le
    frame := by
      intro x hx hs
      rw [if_neg hx]
      exact not_not.mp hs }

def linked (h : HostAnswers) (k : Scratch) : Link (Services Tls) :=
  fun name => (SysFunction.ofName name).compiled h k

/-- The process. It runs until the handler gives an exception up, or the host's code goes
astray and does not come back; what it prints in ending is not kept. -/
structure Machine where
  running : Bool
  world : Services Tls
  guest : State

/-- Code of the guest's own that does not fault, or a fault at EIP. -/
inductive MachineAction
  | native (code : State → State)
  | fault (h : HostAnswers) (k : Scratch)

/-- The host's code called or read through a pointer that is none of its own. -/
def Scratch.astray (k : Scratch) (w : Services Tls) (s : State) : Machine :=
  k.stray.elim ⟨false,w,s⟩ fun r => ⟨true,r.1,r.2⟩

/-- What comes of the guest by how the handler ended, with the text that it printed. -/
def handled (k : Scratch) (w : Services Tls) (s : State) (text : List Byte) :
    Disposition × Emulator → Machine
  | (.continueExecution,e) => ⟨true,({ w with thread := e.tls }).print text,e.toState⟩
  | (.fault (.hostPointer _),_) => k.astray w s
  | _ => ⟨false,w,s⟩

/-- An `int 80h` runs the trampoline; another fault is emulated or not. A number outside the
table calls whatever lies there, and a slot of GS may hold any pointer of the host's. -/
def machineStep (host : HostCode) : Machine → MachineAction → Machine
  | ⟨true,w,s⟩, .native code => ⟨true,w,code s⟩
  | ⟨true,w,s₀⟩, .fault h k =>
    let s := k.enter s₀
    if AtInt80 s then
      match syscallTrap host (linked h k) w s with
      | .running w' _ s' => ⟨true,w',s'⟩
      | .outsideTable _ | .lost _ => k.astray w s₀
      | .exited => ⟨false,w,s₀⟩
    else
      handled k w s₀ (exceptionPrinted s (gsBase w.thread))
        (exceptionHandler host.handleSyscall ⟨s,w.thread⟩ h.tlsIndex)
  | ⟨false,w,s⟩, _ => ⟨false,w,s⟩

/-- The `n` bytes below the stack pointer. -/
def Below (s : State) (n : Nat) : Addr → Prop := Within (s.cpu.esp - BitVec.ofNat 32 n) n

/-- The function that the trap calls. -/
def trapFunction (s : State) : SysFunction := SysFunction.ofName (trapName s)

/-- The `reserve` bytes below the stack pointer have room for the exception, and the code
at EIP is none of them. -/
structure Spared (reserve : Nat) (k : Scratch) (s : State) : Prop where
  pushed : k.pushed ≤ reserve
  code : Avoids (Within s.cpu.eip 8) (Below s reserve)

/-- The trap finds a function, and what this touches of guest memory is none of the
`reserve` bytes below the stack pointer, which are enough for the frames. -/
structure Serviceable (reserve : Nat) (h : HostAnswers) (k : Scratch) (w : Services Tls)
    (s : State) : Prop where
  spared : Spared reserve k s
  inTable : NumberInTable s
  frames : 36 + k.depth ≤ reserve
  apart : Avoids ((trapFunction s).touched h w.kernel (trapArgs s) s.mem) (Below s reserve)

/-- A system call returned to the guest: the result in EAX, the other registers but for ECX
and EDX as they were, and memory as the function left it but for the bytes below ESP. -/
structure Returned (reserve : Nat) (s : State) (result : Word) (m : Mem) (s' : State) : Prop where
  cpu : s'.cpu = { s.cpu with
    eax := result, ecx := s'.cpu.ecx, edx := s'.cpu.edx, eflags := s'.cpu.eflags
    eip := s.cpu.eip + 2#32 }
  mem : AgreeOutside (Below s reserve) m s'.mem

section
variable (host : HostCode) {reserve : Nat} {h : HostAnswers} {k : Scratch} {w : Services Tls}
  {s : State}

theorem slots_below (hk : 36 ≤ reserve) {x : Addr}
    (hx : Within (s.cpu.esp - 36#32) 36 x) : Below s reserve x := by
  simp only [Below, Within] at *
  bv_omega

theorem frames_below (hk : 36 + k.depth ≤ reserve) {x : Addr}
    (hx : Within (s.cpu.esp - 36#32 - BitVec.ofNat 32 k.depth) k.depth x) : Below s reserve x := by
  have hd := k.depth_le
  simp only [Below, Within] at *
  bv_omega

theorem Scratch.enter_outside {x : Addr} (hx : ¬ Within (s.cpu.esp - BitVec.ofNat 32 k.pushed)
    k.pushed x) : (k.enter s).mem x = s.mem x :=
  if_neg hx

theorem record_below (hk : k.pushed ≤ reserve) {x : Addr}
    (hx : Within (s.cpu.esp - BitVec.ofNat 32 k.pushed) k.pushed x) : Below s reserve x := by
  have hp := k.pushed_le
  simp only [Below, Within] at *
  bv_omega

/-- Above the stack the handler finds the guest as it was. -/
theorem Scratch.enter_alike (hk : k.pushed ≤ reserve) :
    Alike (Below s reserve) s (k.enter s) :=
  ⟨rfl,fun _ hx => k.enter_outside fun hin => hx (record_below hk hin)⟩

theorem Spared.atInt80 (hs : Spared reserve k s) : AtInt80 (k.enter s) ↔ AtInt80 s :=
  (k.enter_alike hs.pushed).atInt80 hs.code

/-- Of the guest's memory the way into the dispatcher changes what is below ESP only. -/
theorem entry_agrees (hat : AtInt80 s) (hs : Spared reserve k s) (hk : 36 ≤ reserve) :
    AgreeOutside (Below s reserve) s.mem (dispatchEntry host (k.enter s)).mem := by
  obtain ⟨_,_,hmem⟩ := dispatchEntry_spec host (k.enter s) (hs.atInt80.mpr hat)
  intro x hx
  refine (hmem x ?_).trans ((k.enter_alike hs.pushed).mem x hx)
  exact fun hin => hx (slots_below hk hin)

theorem Serviceable.slots (hs : Serviceable reserve h k w s) : 36 ≤ reserve :=
  Nat.le_trans (Nat.le_add_right ..) hs.frames

/-- There no function looks. -/
private theorem serve_at_entry (hat : AtInt80 s) (hs : Serviceable reserve h k w s) :
    let r := (trapFunction s).serve tlsArea h w (trapArgs s) s.mem
    let r' := (trapFunction s).serve tlsArea h w (trapArgs s) (dispatchEntry host (k.enter s)).mem
    r'.1 = r.1 ∧ AgreeOutside (Below s reserve) r.2 r'.2 ∧
      ∀ x, Below s reserve x → r'.2 x = (dispatchEntry host (k.enter s)).mem x :=
  (trapFunction s).confined tlsArea_confined h w (trapArgs s) _ _ _
    (entry_agrees host hat hs.spared hs.slots) hs.apart

theorem Serviceable.trapReady (hat : AtInt80 s) (hs : Serviceable reserve h k w s) :
    TrapReady host (linked h k) w (k.enter s) where
  int80 := hs.spared.atInt80.mpr hat
  nonneg := hs.inTable.1
  inTable := hs.inTable.2
  respects := by
    obtain ⟨_,_,hkept⟩ := serve_at_entry host hat hs
    intro x hx hstored
    exact hstored (hkept x (slots_below hs.slots hx))

/-- The whole way of a system call, from the fault back to the guest, comes to its function
applied to the guest's registers and memory. -/
theorem machineStep_trap (hat : AtInt80 s) (hs : Serviceable reserve h k w s) :
    let r := (trapFunction s).serve tlsArea h w (trapArgs s) s.mem
    ∃ s', machineStep host ⟨true,w,s⟩ (.fault h k) = ⟨true,r.1.2,s'⟩ ∧
      Returned reserve s r.1.1 r.2 s' := by
  obtain ⟨hresult,hrest,_⟩ := serve_at_entry host hat hs
  have hat' := hs.spared.atInt80.mpr hat
  obtain ⟨hcpu,_,_⟩ := dispatchEntry_spec host (k.enter s) hat'
  have hesp : (dispatchEntry host (k.enter s)).cpu.esp = s.cpu.esp - 36#32 := by
    rw [hcpu]
    rfl
  obtain ⟨eflags,htrap⟩ :=
    syscallTrap_returns host (linked h k) w (k.enter s) (hs.trapReady host hat)
  have hworld : (trapActivation host (linked h k) w (k.enter s)).world =
      ((trapFunction s).serve tlsArea h w (trapArgs s) s.mem).1.2 := congrArg Prod.snd hresult
  have heax : (trapActivation host (linked h k) w (k.enter s)).eax =
      ((trapFunction s).serve tlsArea h w (trapArgs s) s.mem).1.1 := congrArg Prod.fst hresult
  let act := trapActivation host (linked h k) w (k.enter s)
  refine ⟨⟨{ s.cpu with
    eax := act.eax, ecx := act.ecx, edx := act.edx, eip := s.cpu.eip + 2#32, eflags := eflags },
    act.mem⟩,?_,?_,?_⟩
  · simp only [machineStep, if_pos hat', htrap, hworld, act]
    rfl
  · simp only [heax, act]
  · intro x hx
    refine Eq.trans (if_neg ?_) (hrest x hx)
    rw [hesp]
    exact fun hin => hx (frames_below hs.frames hin)

/-- The room for the exception, and the dword that the instruction addresses is not in it. -/
structure Emulable (reserve : Nat) (k : Scratch) (w : Services Tls) (s : State) : Prop where
  spared : Spared reserve k s
  operand : OperandApart (Below s reserve) w.thread s

theorem handled_unhandled {text : List Byte} {r : Disposition × Emulator} (hr : Unhandled r) :
    handled k w s text r = ⟨false,w,s⟩ := by
  obtain ⟨d,e⟩ := r
  obtain rfl | rfl := hr
  all_goals rfl

/-- Handlers that end alike leave the guest alike. -/
private theorem handled_alike {D : Addr → Prop} {m' : Mem} {text : List Byte}
    {r r' : Disposition × Emulator} (hr : HandledAlike D m' r r') :
    let c := handled k w s text r
    ∃ s', handled k w s text r' = ⟨c.running,c.world,s'⟩ ∧ Alike D c.guest s' := by
  obtain ⟨d,e⟩ := r
  obtain ⟨d',e'⟩ := r'
  obtain ⟨hd,ht,hstate,_⟩ := hr
  dsimp only at hd ht hstate
  subst hd
  cases d' with
  | continueExecution => exact ⟨e'.toState,by simp only [handled, ht],hstate⟩
  | fault f =>
    cases f with
    | hostPointer v => exact ⟨_,rfl,rfl,fun _ _ => rfl⟩
    | _ => exact ⟨s,rfl,rfl,fun _ _ => rfl⟩
  | _ => exact ⟨s,rfl,rfl,fun _ _ => rfl⟩

/-- Another fault by how the handler ends, in which the stack has no part. -/
theorem machineStep_handled (hat : ¬ AtInt80 s) (he : Emulable reserve k w s) :
    let c := handled k w s (exceptionPrinted s (gsBase w.thread))
      (exceptionHandler host.handleSyscall ⟨s,w.thread⟩ h.tlsIndex)
    ∃ s', machineStep host ⟨true,w,s⟩ (.fault h k) = ⟨c.running,c.world,s'⟩ ∧
      Alike (Below s reserve) c.guest s' := by
  have hentered := k.enter_alike (s := s) he.spared.pushed
  have hprinted := exceptionPrinted_alike hentered he.spared.code he.operand
  simp only [machineStep, if_neg (mt he.spared.atInt80.mp hat), hprinted]
  rcases exceptionHandler_alike hentered he.spared.code he.operand hat host.handleSyscall
    h.tlsIndex with hr | ⟨hr,hr'⟩
  · exact handled_alike hr
  · rw [handled_unhandled hr, handled_unhandled hr']
    exact ⟨s,rfl,rfl,fun _ _ => rfl⟩

/-- The guest computes up to a system call, which returns to it, and goes on. -/
theorem each_call (hat : AtInt80 s) (hs : Serviceable reserve h k w s) {s₀ : State}
    {P : Machine → MachineAction → Prop} {actions : List MachineAction}
    (hnative : P ⟨true,w,s₀⟩ (.native fun _ => s)) (hfault : P ⟨true,w,s⟩ (.fault h k))
    (hrest : ∀ w' s', w' = ((trapFunction s).serve tlsArea h w (trapArgs s) s.mem).1.2 →
      EachStep (machineStep host) P ⟨true,w',s'⟩ actions) :
    EachStep (machineStep host) P ⟨true,w,s₀⟩ (.native (fun _ => s) :: .fault h k :: actions) := by
  obtain ⟨s',hstep,_⟩ := machineStep_trap host hat hs
  refine ⟨hnative,hfault,?_⟩
  have hcode : machineStep host ⟨true,w,s₀⟩ (.native fun _ => s) = ⟨true,w,s⟩ := rfl
  rw [hcode, hstep]
  exact hrest _ s' rfl

/-- Or up to a fault that the handler takes care of. -/
theorem each_emulated (hat : ¬ AtInt80 s) (he : Emulable reserve k w s) {s₀ : State}
    {P : Machine → MachineAction → Prop} {actions : List MachineAction}
    (hnative : P ⟨true,w,s₀⟩ (.native fun _ => s)) (hfault : P ⟨true,w,s⟩ (.fault h k))
    {w' : Services Tls} {s₁ : State}
    (hhandled : handled k w s (exceptionPrinted s (gsBase w.thread))
      (exceptionHandler host.handleSyscall ⟨s,w.thread⟩ h.tlsIndex) = ⟨true,w',s₁⟩)
    (hrest : ∀ s', EachStep (machineStep host) P ⟨true,w',s'⟩ actions) :
    EachStep (machineStep host) P ⟨true,w,s₀⟩ (.native (fun _ => s) :: .fault h k :: actions) := by
  obtain ⟨s',hstep,_⟩ := machineStep_handled host (h := h) hat he
  refine ⟨hnative,hfault,?_⟩
  have hcode : machineStep host ⟨true,w,s₀⟩ (.native fun _ => s) = ⟨true,w,s⟩ := rfl
  rw [hcode, hstep, hhandled]
  exact hrest s'

end
end Line2.Lnexec
