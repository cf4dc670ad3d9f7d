import Line2.Library.Memory

/-! The IA-32 register file, its arithmetic flags and the eight binary ALU
operations, as far as 32-bit integer code uses them. -/
namespace Line2.Ia32
open Library.Memory

inductive Reg
  | eax | ecx | edx | ebx | esp | ebp | esi | edi
  deriving DecidableEq

structure Cpu where
  eax : Word
  ecx : Word
  edx : Word
  ebx : Word
  esp : Word
  ebp : Word
  esi : Word
  edi : Word
  eip : Word
  eflags : Word
  deriving DecidableEq

structure State where
  cpu : Cpu
  mem : Mem

def Cpu.get (c : Cpu) : Reg → Word
  | .eax => c.eax | .ecx => c.ecx | .edx => c.edx | .ebx => c.ebx
  | .esp => c.esp | .ebp => c.ebp | .esi => c.esi | .edi => c.edi

def Cpu.set (c : Cpu) (v : Word) : Reg → Cpu
  | .eax => { c with eax := v } | .ecx => { c with ecx := v }
  | .edx => { c with edx := v } | .ebx => { c with ebx := v }
  | .esp => { c with esp := v } | .ebp => { c with ebp := v }
  | .esi => { c with esi := v } | .edi => { c with edi := v }

@[simp] theorem Cpu.set_eip (c : Cpu) (v : Word) (r : Reg) : (c.set v r).eip = c.eip := by
  cases r <;> rfl

inductive Flag
  | cf | pf | af | zf | sf | of

def Flag.mask : Flag → Word
  | .cf => 0x001 | .pf => 0x004 | .af => 0x010
  | .zf => 0x040 | .sf => 0x080 | .of => 0x800

def setFlag (f : Flag) (b : Bool) (eflags : Word) : Word :=
  if b then eflags ||| f.mask else eflags &&& ~~~f.mask

/-- PF looks at the low byte only: set when its number of ones is even. -/
def evenParity (r : Word) : Bool :=
  ((List.range 8).filter (fun k => r.getLsbD k)).length % 2 == 0

def resultFlags (r eflags : Word) : Word :=
  setFlag .zf (r == 0) (setFlag .sf r.msb (setFlag .pf (evenParity r) eflags))

/-- AF is undefined after a logical operation; here it keeps its value. -/
def logicFlags (r eflags : Word) : Word :=
  setFlag .cf false (setFlag .of false (resultFlags r eflags))

def addFlags (a b : Word) (carry : Bool) (eflags : Word) : Word :=
  let r := a + b + (BitVec.ofBool carry).setWidth 32
  setFlag .cf (decide (2^32 ≤ a.toNat + b.toNat + carry.toNat))
    (setFlag .of (a.msb == b.msb && r.msb != a.msb)
      (setFlag .af (decide (16 ≤ a.toNat % 16 + b.toNat % 16 + carry.toNat))
        (resultFlags r eflags)))

def subFlags (a b : Word) (borrow : Bool) (eflags : Word) : Word :=
  let r := a - b - (BitVec.ofBool borrow).setWidth 32
  setFlag .cf (decide (a.toNat < b.toNat + borrow.toNat))
    (setFlag .of (a.msb != b.msb && r.msb != a.msb)
      (setFlag .af (decide (a.toNat % 16 < b.toNat % 16 + borrow.toNat))
        (resultFlags r eflags)))

/-- In the order of their opcode bits 3 to 5 and of the `/digit` of group 1. -/
inductive Alu
  | add | or | adc | sbb | and | sub | xor | cmp
  deriving DecidableEq

def carryFlag (eflags : Word) : Bool := eflags.getLsbD 0

/-- Result and new EFLAGS; `cmp` computes the difference only for its flags. -/
def Alu.result (op : Alu) (a b eflags : Word) : Word × Word :=
  let c := (BitVec.ofBool (carryFlag eflags)).setWidth 32
  match op with
  | .add => (a + b,addFlags a b false eflags)
  | .or => (a ||| b,logicFlags (a ||| b) eflags)
  | .adc => (a + b + c,addFlags a b (carryFlag eflags) eflags)
  | .sbb => (a - b - c,subFlags a b (carryFlag eflags) eflags)
  | .and => (a &&& b,logicFlags (a &&& b) eflags)
  | .sub => (a - b,subFlags a b false eflags)
  | .xor => (a ^^^ b,logicFlags (a ^^^ b) eflags)
  | .cmp => (a - b,subFlags a b false eflags)

end Line2.Ia32
