import Line2.Lnexec.GsSupport
import Line2.Ia32.Decoder

/-! `intercept.c`: the vectored exception handler, which recognises `int 80h`
and the GS instructions at EIP and carries out their effect on the context. -/
namespace Line2.Lnexec
open Library.Memory Ia32

/-- The faulting thread as the handler sees it: `*pContext`, guest memory, TLS. -/
structure Emulator extends State where
  tls : Tls

/-- How the handler ends: one of its two return values, `exit(1)` after the code
dump, or a pointer fault of its own. -/
inductive Disposition
  | continueExecution
  | continueSearch
  | exit
  | fault (f : Fault)
  deriving DecidableEq

/-- `PC[k]` -/
def pc (s : State) (k : Nat) : Byte := s.mem (s.cpu.eip + BitVec.ofNat 32 k)

/-- `*(PDWORD) &PC[k]` -/
def pcDword (s : State) (k : Nat) : Word := read32 s.mem (s.cpu.eip + BitVec.ofNat 32 k)

/-- `handleSyscall` is the address of `HandleSyscall`. -/
def tryHandleInt80 (handleSyscall : Addr) (s : State) : Disposition × State :=
  if pc s 0 = 0xcd#8 ∧ pc s 1 = 0x80#8 then
    let esp := s.cpu.esp - 4#32
    (.continueExecution,
      { cpu := { s.cpu with esp := esp, eip := handleSyscall }
        mem := write32 s.mem esp (s.cpu.eip + 2#32) })
  else (.continueSearch,s)

/-- A case that reads `gs:[Address]`, uses the dword and skips `n` bytes. -/
def withGsDword (e : Emulator) (Address answer : Word) (n : Nat) (use : Word → Cpu) :
    Disposition × Emulator :=
  let r := gsReadDword e.tls e.mem Address answer
  match r.1 with
  | .ok v => (.continueExecution,⟨(⟨use v,e.mem⟩ : State).advance n,r.2⟩)
  | .error f => (.fault f,{ e with tls := r.2 })

/-- A case that stores `Data` to `gs:[Address]` and skips `n` bytes. -/
def storeGsDword (e : Emulator) (Address Data answer : Word) (n : Nat) :
    Disposition × Emulator :=
  let r := gsWriteDWord e.tls e.mem Address Data answer
  match r.1 with
  | .ok m => (.continueExecution,⟨(⟨e.cpu,m⟩ : State).advance n,r.2⟩)
  | .error f => (.fault f,{ e with tls := r.2 })

/-- The flags the handler leaves after `cmp gs:[disp32],imm8`: CF, ZF and SF are
cleared, then CF and ZF set from the low bytes. -/
def cmpEFlags (eflags : Word) (A B : Byte) : Word :=
  let cleared := eflags &&& ~~~(0x01#32 ||| 0x40#32 ||| 0x80#32)
  let carry := if A < B then 0x01#32 else 0#32
  let zero := if B = A then 0x40#32 else 0#32
  cleared ||| carry ||| zero ||| carry

/-- The switch on `PC[1]`: `33` is xor r32,gs:[disp32] for EDX, ECX and EAX; `a1`
and `a3` move EAX from and to gs:[moffs32]; `c7` is mov gs:[eax],imm32; `83` is
cmp gs:[disp32],imm8; `89` and `8b` move a register to and from gs:[reg]. Any
other opcode dumps the code around PC and exits. -/
def handleGsIstruction (e : Emulator) (answer : Word) : Disposition × Emulator :=
  let op := pc e.toState 1
  let modrm := pc e.toState 2
  let cpu := e.cpu
  if op = 0x33#8 then
    if modrm = 0x15#8 then
      withGsDword e (pcDword e.toState 3) answer 7 (fun v => { cpu with edx := cpu.edx ^^^ v })
    else if modrm = 0x0d#8 then
      withGsDword e (pcDword e.toState 3) answer 7 (fun v => { cpu with ecx := cpu.ecx ^^^ v })
    else if modrm = 0x05#8 then
      withGsDword e (pcDword e.toState 3) answer 7 (fun v => { cpu with eax := cpu.eax ^^^ v })
    else (.continueSearch,e)
  else if op = 0xa1#8 then
    withGsDword e (pcDword e.toState 2) answer 6 (fun v => { cpu with eax := v })
  else if op = 0xa3#8 then
    storeGsDword e (pcDword e.toState 2) cpu.eax answer 6
  else if op = 0xc7#8 then
    if modrm = 0x00#8 then storeGsDword e cpu.eax (pcDword e.toState 3) answer 7
    else (.continueSearch,e)
  else if op = 0x83#8 then
    if modrm = 0x3d#8 then
      withGsDword e (pcDword e.toState 3) answer 8
        (fun v => { cpu with eflags := cmpEFlags cpu.eflags (v.setWidth 8) (pc e.toState 7) })
    else (.continueSearch,e)
  else if op = 0x89#8 then
    if modrm = 0x0a#8 then storeGsDword e cpu.edx cpu.ecx answer 3
    else if modrm = 0x10#8 then storeGsDword e cpu.eax cpu.edx answer 3
    else (.continueSearch,e)
  else if op = 0x8b#8 then
    if modrm = 0x3a#8 then
      withGsDword e cpu.edx answer 3 (fun v => { cpu with edi := v })
    else if modrm = 0x00#8 then
      withGsDword e cpu.eax answer 3 (fun v => { cpu with eax := v })
    else (.continueSearch,e)
  else (.exit,e)

/-- `8e e8` is mov gs,ax; `65` is the GS prefix. -/
def tryHandleGS (e : Emulator) (answer : Word) : Disposition × Emulator :=
  if pc e.toState 0 = 0x8e#8 then
    if pc e.toState 1 = 0xe8#8 then
      (.continueExecution,⟨e.toState.advance 2,gsLoad e.tls (e.cpu.eax.setWidth 16) answer⟩)
    else (.continueSearch,e)
  else if pc e.toState 0 = 0x65#8 then handleGsIstruction e answer
  else (.continueSearch,e)

/-- `answer` is what `TlsAlloc` returns should GS need its slot now. -/
def exceptionHandler (handleSyscall : Addr) (e : Emulator) (answer : Word) :
    Disposition × Emulator :=
  let r := tryHandleInt80 handleSyscall e.toState
  if r.1 = .continueSearch then tryHandleGS ⟨r.2,e.tls⟩ answer else (r.1,⟨r.2,e.tls⟩)

/-- A load goes through only when GS has a base, and leaves the TLS alone. -/
theorem withGsDword_ok {e e' : Emulator} {Address answer : Word} {n : Nat}
    {use : Word → Cpu} (h : withGsDword e Address answer n use = (.continueExecution,e')) :
    ∃ b, gsBase e.tls = some b ∧
      e' = ⟨(⟨use (read32 e.mem (b + Address)),e.mem⟩ : State).advance n,e.tls⟩ := by
  unfold withGsDword gsReadDword at h
  cases ht : gsTranslateAddress e.tls Address answer with
  | mk r t' =>
    cases r with
    | error f => simp [ht, Except.map] at h
    | ok p =>
      obtain ⟨b,hb,rfl,rfl⟩ := gsBase_of_translate ht
      simp only [ht, Except.map, Prod.mk.injEq, true_and] at h
      exact ⟨b,hb,h.symm⟩

theorem storeGsDword_ok {e e' : Emulator} {Address Data answer : Word} {n : Nat}
    (h : storeGsDword e Address Data answer n = (.continueExecution,e')) :
    ∃ b, gsBase e.tls = some b ∧
      e' = ⟨(⟨e.cpu,write32 e.mem (b + Address) Data⟩ : State).advance n,e.tls⟩ := by
  unfold storeGsDword gsWriteDWord at h
  cases ht : gsTranslateAddress e.tls Address answer with
  | mk r t' =>
    cases r with
    | error f => simp [ht, Except.map] at h
    | ok p =>
      obtain ⟨b,hb,rfl,rfl⟩ := gsBase_of_translate ht
      simp only [ht, Except.map, Prod.mk.injEq, true_and] at h
      exact ⟨b,hb,h.symm⟩

end Line2.Lnexec
