import Line2.Lnexec.GsExecution
import Line2.Lnexec.Machine
import Line2.Lnexec.Selectors

/-! What a guest has to keep to on this machine, and everything that a step of such a guest
can then do. -/
namespace Line2.Lnexec
open Library.Memory Library.Runs Ia32

/-- What the guest has to keep to. At a fault neither its code nor the dword it addresses
through GS is below ESP. A system call has a number of the table, touches none of the
`reserve` bytes below ESP, and set_thread_area gets -1 or an installed entry; another fault is
one that the handler takes care of, and mov gs names an installed entry. Of the host it is
asked that each index of TlsAlloc is free and not 0. That malloc succeeds, and that what the
host keeps is not in the guest's memory, is built into the machine. -/
def Disciplined (host : HostCode) (reserve : Nat) : Machine → MachineAction → Prop
  | ⟨true,_,_⟩, .native _ => True
  | ⟨true,w,s⟩, .fault h k =>
    if AtInt80 s then
      Serviceable reserve h k w s ∧
      (trapFunction s = .sysSetThreadArea → ProperArea w.thread s.mem s.cpu.ebx h.tlsIndex)
    else
      Emulable reserve k w s ∧
      (exceptionHandler host.handleSyscall ⟨s,w.thread⟩ h.tlsIndex).1 = .continueExecution ∧
      (pc s 0 = 0x8e#8 → GuestEntry w.thread (selected (s.cpu.eax.setWidth 16)) ∧
        (w.thread.GsTls = 0#32 → Allocates w.thread h.tlsIndex))
  | ⟨false,_,_⟩, _ => False

/-- The four things that happen to a disciplined guest. -/
inductive MachineOutcome (reserve : Nat) : Machine → MachineAction → Machine → Prop
  | native (w : Services Tls) (s : State) (code : State → State) :
    MachineOutcome reserve ⟨true,w,s⟩ (.native code) ⟨true,w,code s⟩
  | syscall {w : Services Tls} {s s' : State} {h : HostAnswers} {k : Scratch}
      (hat : AtInt80 s) (hs : Serviceable reserve h k w s)
      (hp : trapFunction s = .sysSetThreadArea →
        ProperArea w.thread s.mem s.cpu.ebx h.tlsIndex)
      (hreturn : Returned reserve s ((trapFunction s).serve tlsArea h w (trapArgs s) s.mem).1.1
        ((trapFunction s).serve tlsArea h w (trapArgs s) s.mem).2 s') :
    MachineOutcome reserve ⟨true,w,s⟩ (.fault h k)
      ⟨true,((trapFunction s).serve tlsArea h w (trapArgs s) s.mem).1.2,s'⟩
  | loadGs {w : Services Tls} {s s' : State} {h : HostAnswers} {k : Scratch} (hat : ¬ AtInt80 s)
      (hmov : pc s 0 = 0x8e#8 ∧ pc s 1 = 0xe8#8)
      (hi : GuestEntry w.thread (selected (s.cpu.eax.setWidth 16)))
      (ha : w.thread.GsTls = 0#32 → Allocates w.thread h.tlsIndex)
      (hstack : Alike (Below s reserve) (s.advance 2) s') :
    MachineOutcome reserve ⟨true,w,s⟩ (.fault h k)
      ⟨true,{ w with thread := gsLoad w.thread (s.cpu.eax.setWidth 16) h.tlsIndex },s'⟩
  | throughGs {w : Services Tls} {s s' s'' : State} {h : HostAnswers} {k : Scratch} {b : Word}
      {d : Decoded} (hat : ¬ AtInt80 s) (hb : gsBase w.thread = some b)
      (hdecode : decode (pc s) = some d) (hgs : d.gs = true) (hexec : Executed b d s s')
      (hstack : Alike (Below s reserve) s' s'') :
    MachineOutcome reserve ⟨true,w,s⟩ (.fault h k)
      ⟨true,w.print (exceptionPrinted s (some b)),s''⟩

private theorem emulated_outcome {host : HostCode} {reserve : Nat} {h : HostAnswers} {k : Scratch}
    {w : Services Tls} {s : State} (hat : ¬ AtInt80 s) (hem : Emulable reserve k w s)
    (hc : (exceptionHandler host.handleSyscall ⟨s,w.thread⟩ h.tlsIndex).1 = .continueExecution)
    (hload : pc s 0 = 0x8e#8 → GuestEntry w.thread (selected (s.cpu.eax.setWidth 16)) ∧
      (w.thread.GsTls = 0#32 → Allocates w.thread h.tlsIndex)) :
    MachineOutcome reserve ⟨true,w,s⟩ (.fault h k) (machineStep host ⟨true,w,s⟩ (.fault h k)) := by
  obtain ⟨e,he⟩ : ∃ e, exceptionHandler host.handleSyscall ⟨s,w.thread⟩ h.tlsIndex =
      (.continueExecution,e) := ⟨_,Prod.ext hc rfl⟩
  obtain ⟨s',hstep,hstack⟩ := machineStep_handled host (h := h) hat hem
  rw [he] at hstep hstack
  rw [hstep]
  simp only [handled] at hstack ⊢
  rcases continues_cases he with hint | ⟨hmov,rfl⟩ | ⟨hgs,p,hp⟩
  · exact absurd hint hat
  · have hmatch : Pattern.movGs.Matches s := ⟨hmov.1,hmov.2,trivial⟩
    rw [exceptionPrinted_at hmatch]
    simp only [Pattern.message, Services.print_nil]
    exact .loadGs hat hmov (hload hmov.1).1 (hload hmov.1).2 hstack
  · obtain ⟨b,d,hb,hd,hdgs,hexec,htls⟩ := gs_executed hgs hp he
    rw [htls, hb]
    exact .throughGs hat hb hd hdgs hexec hstack

theorem disciplined_outcome {host : HostCode} {reserve : Nat} {c : Machine} {a : MachineAction}
    (hd : Disciplined host reserve c a) : MachineOutcome reserve c a (machineStep host c a) := by
  obtain ⟨running,w,s⟩ := c
  cases running with
  | false => exact hd.elim
  | true =>
    cases a with
    | native code => exact .native w s code
    | fault h k =>
      simp only [Disciplined] at hd
      split at hd
      · rename_i hat
        obtain ⟨s',hstep,hreturn⟩ := machineStep_trap host hat hd.1
        rw [hstep]
        exact .syscall hat hd.1 hd.2 hreturn
      · rename_i hat
        exact emulated_outcome hat hd.1 hd.2.1 hd.2.2

section sample

/-- A host that has three bytes at a time, TLS index 5, and a place for the heap. -/
def sampleAnswers : HostAnswers :=
  ⟨fun _ _ => .delivers 3,fun _ => .takes 2,0x10000#32,5#32,⟨0#32,0#32⟩,0#64,0#32⟩

/-- The next TLS index is 6. -/
def sampleLater : HostAnswers := { sampleAnswers with tlsIndex := 6#32 }

/-- Nothing read, written or printed yet, and the heap reserved. -/
def sampleKernel : Kernel where
  brk := brkStart emptyVm 0x10000#32
  params := ⟨1#32,2#32,3#32⟩
  files := fun _ => [0x61#8,0x62#8,0x63#8,0x64#8]
  output := fun _ => []
  printed := []

def sampleScratch : Scratch where
  ecx := 0x1111#32
  edx := 0x2222#32
  eflags := 0#32
  pushed := 800
  pushed_le := by decide
  record := fun _ => 0xdd#8
  depth := 64
  depth_le := by decide
  frames := fun _ => 0xcc#8
  stray := none

/-- The code at 1000h, and at 2000h a user_desc with -1 and the base 3000h. -/
def sampleState (code : List Byte) (eax ebx ecx edx : Word) : State where
  cpu := ⟨eax,ecx,edx,ebx,0x100000#32,0#32,0#32,0#32,0x1000#32,0#32⟩
  mem := storeAll (fun _ => 0#8)
    [(0x1000#32,code),(0x2000#32,bytes32 0xffffffff#32),(0x2004#32,bytes32 0x3000#32)]

/-- `int 80h` -/
def sampleCall (number ebx ecx edx : Word) : State :=
  sampleState [0xcd#8,0x80#8] number ebx ecx edx

/-- `mov gs,ax` with the selector of entry 5. -/
def sampleLoadGs : State := sampleState [0x8e#8,0xe8#8] 0x2b#32 0#32 0#32 0#32

/-- `mov eax,gs:[14h]` -/
def sampleThroughGs : State :=
  sampleState [0x65#8,0xa1#8,0x14#8,0#8,0#8,0#8] 0#32 0#32 0#32 0#32

theorem sampleCall_at (number ebx ecx edx : Word) : AtInt80 (sampleCall number ebx ecx edx) := by
  have h : AtInt80 (sampleCall 0#32 0#32 0#32 0#32) := by decide
  exact h

/-- The TLS once entry 5 is installed, and once GS has the slot 6. -/
def sampleTls : Tls :=
  (tlsArea sampleAnswers setupTls 0x2000#32 (sampleCall 243#32 0x2000#32 0#32 0#32).mem).1.2

def sampleTlsGs : Tls := gsLoad sampleTls 0x2b#16 6#32

/-- sys_read of seven bytes to 3000h, sys_brk(12000h), set_thread_area at 2000h, and then GS
is loaded and used. -/
def sampleRun : List MachineAction :=
  [.native fun _ => sampleCall 3#32 0#32 0x3000#32 7#32,.fault sampleAnswers sampleScratch,
    .native fun _ => sampleCall 45#32 0x12000#32 0#32 0#32,.fault sampleAnswers sampleScratch,
    .native fun _ => sampleCall 243#32 0x2000#32 0#32 0#32,.fault sampleAnswers sampleScratch,
    .native fun _ => sampleLoadGs,.fault sampleLater sampleScratch,
    .native fun _ => sampleThroughGs,.fault sampleLater sampleScratch]

theorem sampleState_spared (code : List Byte) (eax ebx ecx edx : Word) :
    Spared 1000 sampleScratch (sampleState code eax ebx ecx edx) where
  pushed := by decide
  code := by
    intro x hx hbelow
    simp only [Below, Within, sampleState] at hx hbelow
    bv_omega

variable (w : Services Tls)

theorem sampleRead_serviceable :
    Serviceable 1000 sampleAnswers sampleScratch w (sampleCall 3#32 0#32 0x3000#32 7#32) where
  spared := sampleState_spared ..
  inTable := by
    rw [NumberInTable, NSys, sysEntry_length]
    decide
  frames := by decide
  apart := by
    rintro x ⟨_,d,_,hx⟩ hbelow
    have hle := answered_le_buffer (w.kernel.files (translateFile (w.kernel.process
      (sampleCall 3#32 0#32 0x3000#32 7#32).mem) 0#32)) 7#32 d
    have hin : Within 0x3000#32 7 x := Nat.lt_of_lt_of_le hx hle
    simp only [Below, Within, sampleCall, sampleState] at hin hbelow
    bv_omega

private theorem sampleBrk_serviceable :
    Serviceable 1000 sampleAnswers sampleScratch w (sampleCall 45#32 0x12000#32 0#32 0#32) where
  spared := sampleState_spared ..
  inTable := by
    rw [NumberInTable, NSys, sysEntry_length]
    decide
  frames := by decide
  apart := fun _ hx => hx.elim

private theorem sampleArea_serviceable :
    Serviceable 1000 sampleAnswers sampleScratch w (sampleCall 243#32 0x2000#32 0#32 0#32) where
  spared := sampleState_spared ..
  inTable := by
    rw [NumberInTable, NSys, sysEntry_length]
    decide
  frames := by decide
  apart := by
    intro x hx hbelow
    have hin : Within 0x2000#32 16 x := hx
    simp only [Below, Within, sampleCall, sampleState] at hin hbelow
    bv_omega

private theorem sampleArea_proper {t : Tls} (h : t.allocated 5#32 = false) : ProperArea t
    (sampleCall 243#32 0x2000#32 0#32 0#32).mem 0x2000#32 sampleAnswers.tlsIndex := by
  have hminus : read32 (sampleCall 243#32 0x2000#32 0#32 0#32).mem 0x2000#32 = 0xffffffff#32 := by
    decide
  rw [ProperArea, if_pos hminus]
  exact .inr ⟨⟨by decide,h⟩,by decide⟩

private theorem sampleTls_base : gsBase sampleTls = none ∧ gsBase sampleTlsGs = some 0x3000#32 := by
  decide

private theorem sampleLoadGs_emulable (hw : w.thread = sampleTls) :
    Emulable 1000 sampleScratch w sampleLoadGs where
  spared := sampleState_spared ..
  operand := by
    intro p hp b hb
    rw [hw, sampleTls_base.1] at hb
    cases hb

private theorem sampleThroughGs_emulable (hw : w.thread = sampleTlsGs) :
    Emulable 1000 sampleScratch w sampleThroughGs where
  spared := sampleState_spared ..
  operand := by
    intro p hp b hb
    rw [hw, sampleTls_base.2] at hb
    obtain rfl := Option.some.inj hb
    have hmatch : Pattern.loadMoffs.Matches sampleThroughGs := by decide
    obtain rfl := hp.unique hmatch
    have haddress : Pattern.loadMoffs.address sampleThroughGs = 0x14#32 := by decide
    rw [haddress]
    intro x hx hbelow
    simp only [Below, Within, sampleThroughGs, sampleState] at hx hbelow
    bv_omega

private theorem sampleArea_thread (hw : w.thread = setupTls) :
    ((trapFunction (sampleCall 243#32 0x2000#32 0#32 0#32)).serve tlsArea sampleAnswers w
      (trapArgs (sampleCall 243#32 0x2000#32 0#32 0#32))
      (sampleCall 243#32 0x2000#32 0#32 0#32).mem).1.2.thread = sampleTls := by
  have hf : trapFunction (sampleCall 243#32 0x2000#32 0#32 0#32) = .sysSetThreadArea := rfl
  rw [hf, sampleTls, ← hw]
  rfl

private theorem sampleLoadGs_handled (hw : w.thread = sampleTls) :
    handled sampleScratch w sampleLoadGs (exceptionPrinted sampleLoadGs (gsBase w.thread))
      (exceptionHandler sampleHost.handleSyscall ⟨sampleLoadGs,w.thread⟩ sampleLater.tlsIndex) =
    ⟨true,{ w with thread := sampleTlsGs },sampleLoadGs.advance 2⟩ := by
  have hmatch : Pattern.movGs.Matches sampleLoadGs := by decide
  rw [exceptionHandler_at _ ⟨sampleLoadGs,w.thread⟩ _ hmatch]
  simp only [Pattern.handle, handled, exceptionPrinted_at hmatch, Pattern.message,
    Services.print_nil, hw]
  rfl

/-- What holds of the three calls and the two GS instructions, the guest's own code in
between, holds of the run. -/
theorem sampleRun_each {P : Machine → MachineAction → Prop}
    (hnative : ∀ w s code, P ⟨true,w,s⟩ (.native code))
    (hread : ∀ w, P ⟨true,w,sampleCall 3#32 0#32 0x3000#32 7#32⟩
      (.fault sampleAnswers sampleScratch))
    (hbrk : ∀ w, P ⟨true,w,sampleCall 45#32 0x12000#32 0#32 0#32⟩
      (.fault sampleAnswers sampleScratch))
    (harea : ∀ w, w.thread = setupTls → P ⟨true,w,sampleCall 243#32 0x2000#32 0#32 0#32⟩
      (.fault sampleAnswers sampleScratch))
    (hload : ∀ w, w.thread = sampleTls → P ⟨true,w,sampleLoadGs⟩ (.fault sampleLater sampleScratch))
    (hthrough : ∀ w, w.thread = sampleTlsGs →
      P ⟨true,w,sampleThroughGs⟩ (.fault sampleLater sampleScratch)) (kernel : Kernel) :
    EachStep (machineStep sampleHost) P ⟨true,⟨kernel,setupTls⟩,sampleTrap⟩ sampleRun := by
  refine each_call sampleHost (sampleCall_at ..) (sampleRead_serviceable _) (hnative ..)
    (hread _) fun w₁ s₁ h₁ => ?_
  refine each_call sampleHost (sampleCall_at ..) (sampleBrk_serviceable _) (hnative ..)
    (hbrk _) fun w₂ s₂ h₂ => ?_
  have ht₂ : w₂.thread = setupTls := by
    rw [h₂, h₁]
    rfl
  refine each_call sampleHost (sampleCall_at ..) (sampleArea_serviceable _) (hnative ..)
    (harea _ ht₂) fun w₃ s₃ h₃ => ?_
  have ht₃ : w₃.thread = sampleTls := by
    rw [h₃]
    exact sampleArea_thread _ ht₂
  refine each_emulated sampleHost (by decide) (sampleLoadGs_emulable _ ht₃) (hnative ..)
    (hload _ ht₃) (sampleLoadGs_handled _ ht₃) fun s₄ => ?_
  exact ⟨hnative ..,hthrough _ rfl,trivial⟩

theorem sampleRun_disciplined (kernel : Kernel) :
    EachStep (machineStep sampleHost) (Disciplined sampleHost 1000)
      ⟨true,⟨kernel,setupTls⟩,sampleTrap⟩ sampleRun := by
  refine sampleRun_each (fun _ _ _ => trivial) ?_ ?_ ?_ ?_ ?_ kernel
  · intro w
    simp only [Disciplined, if_pos (sampleCall_at ..)]
    exact ⟨sampleRead_serviceable w,fun hf => by cases hf⟩
  · intro w
    simp only [Disciplined, if_pos (sampleCall_at ..)]
    exact ⟨sampleBrk_serviceable w,fun hf => by cases hf⟩
  · intro w ht
    simp only [Disciplined, if_pos (sampleCall_at ..), ht]
    exact ⟨sampleArea_serviceable w,fun _ => sampleArea_proper rfl⟩
  · intro w ht
    have hat : ¬ AtInt80 sampleLoadGs := by decide
    have hmatch : Pattern.movGs.Matches sampleLoadGs := by decide
    simp only [Disciplined, if_neg hat, exceptionHandler_at _ ⟨sampleLoadGs,w.thread⟩ _ hmatch]
    refine ⟨sampleLoadGs_emulable w ht,rfl,fun _ => ?_⟩
    rw [ht]
    exact ⟨⟨by decide,⟨0,by decide⟩,by decide⟩,fun _ => ⟨⟨by decide,by decide⟩,by decide⟩⟩
  · intro w ht
    have hat : ¬ AtInt80 sampleThroughGs := by decide
    have hmatch : Pattern.loadMoffs.Matches sampleThroughGs := by decide
    have hbase : gsBase w.thread = some 0x3000#32 := ht ▸ sampleTls_base.2
    simp only [Disciplined, if_neg hat]
    refine ⟨sampleThroughGs_emulable w ht,?_,fun h => absurd h (by decide)⟩
    rw [exceptionHandler_at _ ⟨sampleThroughGs,w.thread⟩ _ hmatch,
      Pattern.handle_disposition Pattern.noConfusion Pattern.noConfusion,
      gsTranslateAddress_of_base hbase]
    rfl

end sample
end Line2.Lnexec
