import Line2.Lnexec.HandlerPatterns

/-! The GS patterns of the handler against the reference decoder: every byte
string it accepts decodes to an instruction of the same length and operands. -/
namespace Line2.Lnexec
open Library.Memory Ia32

/-- What the handler does to the operands of an instruction. A MOV is complete;
an XOR leaves EFLAGS as they are; a CMP compares the operands' low bytes. -/
def emulatedEffect (segment : Word) (n : Nat) (s : State) : Instr → State
  | .mov dst src => Instr.exec segment n s (.mov dst src)
  | .alu .xor dst src =>
    (s.write segment (s.read segment dst ^^^ s.read segment src) dst).advance n
  | .alu .cmp dst src =>
    let A := (s.read segment dst).setWidth 8
    let B := (s.read segment src).setWidth 8
    ({ s with cpu := { s.cpu with eflags := cmpEFlags s.cpu.eflags A B } } : State).advance n
  | .alu _ _ _ => s

/-- The handler's work agrees with the decoder at this context. -/
def AgreesWithDecoder (e e' : Emulator) : Prop :=
  ∃ base d, gsBase e.tls = some base ∧ decode (pc e.toState) = some d ∧ d.gs = true ∧
    e'.cpu.eip = e.cpu.eip + BitVec.ofNat 32 d.length ∧ e'.tls = e.tls ∧
    e'.toState = emulatedEffect base d.length e.toState d.instr ∧
    (d.instr.IsMov → e'.toState = d.instr.exec base d.length e.toState)

/-- How the switch can end. An accepted pattern reads or stores one dword, and
comes with its decoding and with the effect that the decoding calls for. -/
inductive GsOutcome (e : Emulator) (answer : Word) : Disposition × Emulator → Prop
  | search : GsOutcome e answer (.continueSearch,e)
  | exit : GsOutcome e answer (.exit,e)
  | read {Address : Word} {n : Nat} {use : Word → Cpu} {i : Instr}
      (hd : decode (pc e.toState) = some ⟨true,i,n⟩) (heip : ∀ v, (use v).eip = e.cpu.eip)
      (heff : ∀ b, emulatedEffect b n e.toState i =
        (⟨use (read32 e.mem (b + Address)),e.mem⟩ : State).advance n) :
      GsOutcome e answer (withGsDword e Address answer n use)
  | store {Address Data : Word} {n : Nat} {i : Instr} (hd : decode (pc e.toState) = some ⟨true,i,n⟩)
      (heff : ∀ b, emulatedEffect b n e.toState i =
        (⟨e.cpu,write32 e.mem (b + Address) Data⟩ : State).advance n) :
      GsOutcome e answer (storeGsDword e Address Data answer n)

private theorem pcDword_eq (s : State) (k : Nat) : pcDword s k = Decoder.imm32 (pc s) k := by
  simp only [pcDword, Decoder.imm32, pc, read32, BitVec.ofNat_add, BitVec.add_assoc]

private theorem agrees {e e' : Emulator} {b : Word} {i : Instr} {n : Nat}
    (hb : gsBase e.tls = some b) (hd : decode (pc e.toState) = some ⟨true,i,n⟩)
    (heip : e'.cpu.eip = e.cpu.eip + BitVec.ofNat 32 n) (htls : e'.tls = e.tls)
    (heff : e'.toState = emulatedEffect b n e.toState i) :
    AgreesWithDecoder e e' := by
  refine ⟨b,_,hb,hd,rfl,heip,htls,heff,?_⟩
  intro hmov
  cases i with
  | mov dst src => exact heff
  | alu op dst src => exact hmov.elim

section
variable {code : Nat → Byte}

private theorem decode_xor {b : Byte} (h0 : code 0 = 0x65#8) (h1 : code 1 = 0x33#8)
    (h2 : code 2 = b) (hmod : b.toNat / 64 = 0) (hrm : b.toNat % 8 = 5) :
    decode code = some ⟨true,.alu .xor (.reg (Decoder.reg (b.toNat / 8 % 8)))
      (.mem ⟨none,none,Decoder.imm32 code 3⟩),7⟩ := by
  apply decode_gs h0
  simp [Decoder.opcode, h1, Decoder.modRM_disp32 h2 hmod hrm, Decoder.alu]

private theorem decode_cmp (h0 : code 0 = 0x65#8) (h1 : code 1 = 0x83#8)
    (h2 : code 2 = 0x3d#8) : decode code = some ⟨true,.alu .cmp
      (.mem ⟨none,none,Decoder.imm32 code 3⟩) (.imm (Decoder.imm8 code 7)),8⟩ := by
  apply decode_gs h0
  simp [Decoder.opcode, h1, Decoder.modRM_disp32 h2, Decoder.alu]

private theorem decode_load_moffs (h0 : code 0 = 0x65#8) (h1 : code 1 = 0xa1#8) :
    decode code = some ⟨true,.mov (.reg .eax) (.mem ⟨none,none,Decoder.imm32 code 2⟩),6⟩ := by
  apply decode_gs h0
  simp [Decoder.opcode, h1]

private theorem decode_store_moffs (h0 : code 0 = 0x65#8) (h1 : code 1 = 0xa3#8) :
    decode code = some ⟨true,.mov (.mem ⟨none,none,Decoder.imm32 code 2⟩) (.reg .eax),6⟩ := by
  apply decode_gs h0
  simp [Decoder.opcode, h1]

private theorem decode_store_imm (h0 : code 0 = 0x65#8) (h1 : code 1 = 0xc7#8)
    (h2 : code 2 = 0x00#8) : decode code = some ⟨true,.mov (.mem ⟨some .eax,none,0#32⟩)
      (.imm (Decoder.imm32 code 3)),7⟩ := by
  apply decode_gs h0
  simp [Decoder.opcode, h1, Decoder.modRM_base h2, Decoder.reg]

private theorem decode_store_reg {b : Byte} (h0 : code 0 = 0x65#8) (h1 : code 1 = 0x89#8)
    (h2 : code 2 = b) (hmod : b.toNat / 64 = 0) (h4 : b.toNat % 8 ≠ 4) (h5 : b.toNat % 8 ≠ 5) :
    decode code = some ⟨true,.mov (.mem ⟨some (Decoder.reg (b.toNat % 8)),none,0#32⟩)
      (.reg (Decoder.reg (b.toNat / 8 % 8))),3⟩ := by
  apply decode_gs h0
  simp [Decoder.opcode, h1, Decoder.modRM_base h2 hmod h4 h5]

private theorem decode_load_reg {b : Byte} (h0 : code 0 = 0x65#8) (h1 : code 1 = 0x8b#8)
    (h2 : code 2 = b) (hmod : b.toNat / 64 = 0) (h4 : b.toNat % 8 ≠ 4) (h5 : b.toNat % 8 ≠ 5) :
    decode code = some ⟨true,.mov (.reg (Decoder.reg (b.toNat / 8 % 8)))
      (.mem ⟨some (Decoder.reg (b.toNat % 8)),none,0#32⟩),3⟩ := by
  apply decode_gs h0
  simp [Decoder.opcode, h1, Decoder.modRM_base h2 hmod h4 h5]

end

/-- Each GS pattern, with its decoding and its effect. -/
theorem Pattern.outcome (handleSyscall : Addr) {e : Emulator} (answer : Word) {p : Pattern}
    (hp : p.Matches e.toState) (hgs : pc e.toState 0 = 0x65#8) :
    GsOutcome e answer (p.handle handleSyscall e answer) := by
  have hother {b : Byte} (hb : b ≠ 0x65#8) : pc e.toState 0 ≠ b := fun h => hb (h.symm.trans hgs)
  cases p with
  | int80 => exact absurd hp.1 (hother (by decide))
  | movGs => exact absurd hp.1 (hother (by decide))
  | xorEdx | xorEcx | xorEax =>
    obtain ⟨_,h1,h2,_⟩ := hp
    exact .read (decode_xor hgs h1 h2 (by decide) (by decide)) (fun _ => rfl)
      (fun b => by simp [emulatedEffect, Decoder.reg, Cpu.get, Cpu.set, pcDword_eq, address])
  | loadMoffs =>
    obtain ⟨_,h1,_⟩ := hp
    exact .read (decode_load_moffs hgs h1) (fun _ => rfl)
      (fun b => by simp [emulatedEffect, Instr.exec, Cpu.set, pcDword_eq, address])
  | storeMoffs =>
    obtain ⟨_,h1,_⟩ := hp
    exact .store (decode_store_moffs hgs h1)
      (fun b => by simp [emulatedEffect, Instr.exec, Cpu.get, pcDword_eq, address])
  | storeImm =>
    obtain ⟨_,h1,h2,_⟩ := hp
    exact .store (decode_store_imm hgs h1 h2)
      (fun b => by simp [emulatedEffect, Instr.exec, Cpu.get, pcDword_eq, address])
  | cmpImm =>
    obtain ⟨_,h1,h2,_⟩ := hp
    exact .read (decode_cmp hgs h1 h2) (fun _ => rfl)
      (fun b => by simp [emulatedEffect, Decoder.imm8_low, pcDword_eq, address])
  | storeEcxAtEdx | storeEdxAtEax =>
    obtain ⟨_,h1,h2,_⟩ := hp
    exact .store (decode_store_reg hgs h1 h2 (by decide) (by decide) (by decide))
      (fun b => by simp [emulatedEffect, Instr.exec, Decoder.reg, Cpu.get, address])
  | loadEdiAtEdx | loadEaxAtEax =>
    obtain ⟨_,h1,h2,_⟩ := hp
    exact .read (decode_load_reg hgs h1 h2 (by decide) (by decide) (by decide)) (fun _ => rfl)
      (fun b => by simp [emulatedEffect, Instr.exec, Decoder.reg, Cpu.get, Cpu.set, address])

/-- The inversion of the handler at a GS prefix. -/
theorem exceptionHandler_outcome (handleSyscall : Addr) (e : Emulator) (answer : Word)
    (hgs : pc e.toState 0 = 0x65#8) :
    GsOutcome e answer (exceptionHandler handleSyscall e answer) := by
  by_cases hmatch : ∃ p : Pattern, p.Matches e.toState
  · obtain ⟨p,hp⟩ := hmatch
    rw [exceptionHandler_at handleSyscall e answer hp]
    exact Pattern.outcome handleSyscall answer hp hgs
  · rcases exceptionHandler_unmatched handleSyscall answer (fun p hp => hmatch ⟨p,hp⟩) with hr | hr
    · rw [hr]
      exact .search
    · rw [hr]
      exact .exit

/-- Every byte string that the handler executes as a GS instruction decodes to
an instruction of the same length on the same operands, and a MOV leaves the
state that the processor leaves. -/
theorem gs_instruction_agrees_with_decoder (handleSyscall : Addr) (answer : Word)
    (e e' : Emulator) (hgs : pc e.toState 0 = 0x65#8)
    (h : exceptionHandler handleSyscall e answer = (.continueExecution,e')) :
    AgreesWithDecoder e e' := by
  have hout := exceptionHandler_outcome handleSyscall e answer hgs
  rw [h] at hout
  generalize hr : (Disposition.continueExecution,e') = r at hout
  cases hout with
  | search => cases hr
  | exit => cases hr
  | read hd heip heff =>
    obtain ⟨b,hb,rfl⟩ := withGsDword_ok hr.symm
    refine agrees hb hd ?_ rfl ?_
    · simp [State.advance, heip]
    · exact (heff b).symm
  | store hd heff =>
    obtain ⟨b,hb,rfl⟩ := storeGsDword_ok hr.symm
    exact agrees hb hd rfl rfl (heff b).symm

/-- `mov eax,gs:[eax]` at 1000h, with GS loaded from slot 5. -/
def gsLoadContext : Emulator where
  cpu := ⟨0xfffffff0#32,0#32,0#32,0#32,0#32,0#32,0#32,0#32,0x1000#32,0#32⟩
  mem := store (fun _ => 0#8) 0x1000#32 [0x65#8,0x8b#8,0x00#8]
  tls := ⟨fun i => i == 5#32,fun i => if i = 5#32 then .descriptor 0 else .null,
    [⟨6#32,0x2000#32,0xfffff#32,0x51#32⟩],5#32⟩

theorem gs_load_through_eax_agrees :
    AgreesWithDecoder gsLoadContext (exceptionHandler 0#32 gsLoadContext 0#32).2 :=
  gs_instruction_agrees_with_decoder 0#32 0#32 gsLoadContext _ (by decide)
    (Prod.ext (by decide) rfl)

end Line2.Lnexec
