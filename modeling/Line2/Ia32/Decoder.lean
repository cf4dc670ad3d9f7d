import Line2.Ia32.Processor

/-! Reference decoder and semantics of the 32-bit MOV and ALU encodings with an
optional GS override: opcode, ModRM with SIB, displacement and immediate. -/
namespace Line2.Ia32
open Library.Memory

/-- base + index * 2^scale + displacement, before the segment base is added. -/
structure EffectiveAddress where
  base : Option Reg
  index : Option (Reg × Nat)
  disp : Word
  deriving DecidableEq

inductive Operand
  | reg (r : Reg)
  | mem (a : EffectiveAddress)
  | imm (v : Word)
  deriving DecidableEq

inductive Instr
  | mov (dst src : Operand)
  | alu (op : Alu) (dst src : Operand)
  deriving DecidableEq

def Instr.IsMov : Instr → Prop
  | .mov _ _ => True
  | .alu _ _ _ => False

/-- A decoded instruction: its segment override, meaning and encoded length. -/
structure Decoded where
  gs : Bool
  instr : Instr
  length : Nat
  deriving DecidableEq

namespace Decoder

def reg : Nat → Reg
  | 0 => .eax | 1 => .ecx | 2 => .edx | 3 => .ebx
  | 4 => .esp | 5 => .ebp | 6 => .esi | _ => .edi

def alu : Nat → Alu
  | 0 => .add | 1 => .or | 2 => .adc | 3 => .sbb
  | 4 => .and | 5 => .sub | 6 => .xor | _ => .cmp

def imm32 (code : Nat → Byte) (k : Nat) : Word :=
  word32 (code k) (code (k+1)) (code (k+2)) (code (k+3))

def imm8 (code : Nat → Byte) (k : Nat) : Word := (code k).signExtend 32

/-- Sign extension keeps the byte. -/
theorem imm8_low (code : Nat → Byte) (k : Nat) : (imm8 code k).setWidth 8 = code k := by
  rw [imm8]
  ext i hi
  rw [BitVec.getElem_setWidth, BitVec.getLsbD_signExtend]
  simp [hi, show i < 32 by omega]

/-- Base and index named by `rm`, with the SIB byte at `k` when `rm` is 4, and
the bytes taken. A base of 5 under mod 0 stands for a bare disp32. -/
def baseIndex (code : Nat → Byte) (k mod rm : Nat) : Option Reg × Option (Reg × Nat) × Nat :=
  if rm = 4 then
    let sib := (code k).toNat
    (if sib % 8 = 5 ∧ mod = 0 then none else some (reg (sib % 8)),
      if sib / 8 % 8 = 4 then none else some (reg (sib / 8 % 8),sib / 64),1)
  else (if rm = 5 ∧ mod = 0 then none else some (reg rm),none,0)

/-- The register field, the r/m operand and the length of ModRM, SIB and disp. -/
def modRM (code : Nat → Byte) (k : Nat) : Nat × Operand × Nat :=
  let b := (code k).toNat
  let mod := b / 64
  if mod = 3 then (b / 8 % 8,.reg (reg (b % 8)),1)
  else
    let (base,index,n) := baseIndex code (k+1) mod (b % 8)
    let (disp,d) :=
      if mod = 1 then (imm8 code (k+1+n),1)
      else if mod = 2 ∨ base = none then (imm32 code (k+1+n),4)
      else (0#32,0)
    (b / 8 % 8,.mem ⟨base,index,disp⟩,1+n+d)

/-- Mod 0 with r/m 5: a bare disp32. -/
theorem modRM_disp32 {code : Nat → Byte} {k : Nat} {b : Byte} (hb : code k = b)
    (hmod : b.toNat / 64 = 0) (hrm : b.toNat % 8 = 5) :
    modRM code k = (b.toNat / 8 % 8,.mem ⟨none,none,imm32 code (k+1)⟩,5) := by
  simp [modRM, baseIndex, hb, hmod, hrm]

/-- Mod 0 with a plain base register and no displacement. -/
theorem modRM_base {code : Nat → Byte} {k : Nat} {b : Byte} (hb : code k = b)
    (hmod : b.toNat / 64 = 0) (h4 : b.toNat % 8 ≠ 4) (h5 : b.toNat % 8 ≠ 5) :
    modRM code k = (b.toNat / 8 % 8,.mem ⟨some (reg (b.toNat % 8)),none,0#32⟩,1) := by
  simp [modRM, baseIndex, hb, hmod, h4, h5]

/-- One instruction whose opcode byte is at `k`; the length counts from `k`. -/
def opcode (code : Nat → Byte) (k : Nat) : Option (Instr × Nat) :=
  let op := (code k).toNat
  let (r,rm,n) := modRM code (k+1)
  if op = 0xa1 then some (.mov (.reg .eax) (.mem ⟨none,none,imm32 code (k+1)⟩),5)
  else if op = 0xa3 then some (.mov (.mem ⟨none,none,imm32 code (k+1)⟩) (.reg .eax),5)
  else if op = 0xc7 ∧ r = 0 then some (.mov rm (.imm (imm32 code (k+1+n))),1+n+4)
  else if op = 0x83 then some (.alu (alu r) rm (.imm (imm8 code (k+1+n))),1+n+1)
  else if op = 0x89 then some (.mov rm (.reg (reg r)),1+n)
  else if op = 0x8b then some (.mov (.reg (reg r)) rm,1+n)
  else if op < 0x40 ∧ op % 8 = 1 then some (.alu (alu (op / 8)) rm (.reg (reg r)),1+n)
  else if op < 0x40 ∧ op % 8 = 3 then some (.alu (alu (op / 8)) (.reg (reg r)) rm,1+n)
  else none

end Decoder

/-- Decode the bytes of an instruction, `65` being the GS segment override. -/
def decode (code : Nat → Byte) : Option Decoded :=
  if code 0 = 0x65 then (Decoder.opcode code 1).map (fun p => ⟨true,p.1,p.2+1⟩)
  else (Decoder.opcode code 0).map (fun p => ⟨false,p.1,p.2⟩)

theorem decode_gs {code : Nat → Byte} {i : Instr} {n : Nat} (h0 : code 0 = 0x65#8)
    (h : Decoder.opcode code 1 = some (i,n)) : decode code = some ⟨true,i,n+1⟩ := by
  simp [decode, h0, h]

def Cpu.effective (c : Cpu) (a : EffectiveAddress) : Word :=
  (a.base.elim 0 c.get) + (a.index.elim 0 (fun p => c.get p.1 <<< p.2)) + a.disp

/-- The value of a 32-bit operand; a memory operand is relative to `segment`. -/
def State.read (s : State) (segment : Word) : Operand → Word
  | .reg r => s.cpu.get r
  | .mem a => read32 s.mem (segment + s.cpu.effective a)
  | .imm v => v

@[simp] theorem State.read_reg (s : State) (segment : Word) (r : Reg) :
    s.read segment (.reg r) = s.cpu.get r := rfl

@[simp] theorem State.read_imm (s : State) (segment v : Word) : s.read segment (.imm v) = v := rfl

@[simp] theorem Cpu.effective_disp (c : Cpu) (d : Word) : c.effective ⟨none,none,d⟩ = d := by
  simp [Cpu.effective]

@[simp] theorem Cpu.effective_base (c : Cpu) (r : Reg) :
    c.effective ⟨some r,none,0#32⟩ = c.get r := by
  simp [Cpu.effective]

@[simp] theorem State.read_mem (s : State) (segment : Word) (a : EffectiveAddress) :
    s.read segment (.mem a) = read32 s.mem (segment + s.cpu.effective a) := rfl

def State.write (s : State) (segment v : Word) : Operand → State
  | .reg r => { s with cpu := s.cpu.set v r }
  | .mem a => { s with mem := write32 s.mem (segment + s.cpu.effective a) v }
  | .imm _ => s

@[simp] theorem State.write_reg (s : State) (segment v : Word) (r : Reg) :
    s.write segment v (.reg r) = ⟨s.cpu.set v r,s.mem⟩ := rfl

@[simp] theorem State.write_mem (s : State) (segment v : Word) (a : EffectiveAddress) :
    s.write segment v (.mem a) =
      ⟨s.cpu,write32 s.mem (segment + s.cpu.effective a) v⟩ := rfl

def State.advance (s : State) (n : Nat) : State :=
  { s with cpu := { s.cpu with eip := s.cpu.eip + BitVec.ofNat 32 n } }

/-- What the processor does with a decoded instruction of `n` bytes. -/
def Instr.exec (segment : Word) (n : Nat) (s : State) : Instr → State
  | .mov dst src => (s.write segment (s.read segment src) dst).advance n
  | .alu op dst src =>
    let (r,eflags) := op.result (s.read segment dst) (s.read segment src) s.cpu.eflags
    let s' := if op = .cmp then s else s.write segment r dst
    { s' with cpu := { s'.cpu with eflags := eflags } }.advance n

example : decode (fun k => [0x65,0x8b,0x44,0x8a,0xfc].getD k 0) =
    some ⟨true,.mov (.reg .eax) (.mem ⟨some .edx,some (.ecx,2),-4⟩),5⟩ := by decide

end Line2.Ia32
