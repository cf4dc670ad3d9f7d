import Line2.Lnexec.HandlerFrame

/-! The flags of the emulated CMP and XOR against the processor's. The first looks at
the low bytes and knows three flags, the second leaves EFLAGS as it found them. -/
namespace Line2.Lnexec
open Library.Memory Ia32

/-- A conditional jump after the instruction finds the flags of `x - y`, whichever it
tests; the other bits are as before. -/
structure FlagsOfSub (x y before after : Word) : Prop where
  flags : ∀ f : Flag, f ≠ .af → flagSet f after = flagSet f (subFlags x y false before)
  jumps : ∀ c : Condition, c.taken after = true ↔ c.Relates x y
  others : ∀ k, OtherBit k → after.getLsbD k = before.getLsbD k

/-- `cmp dword ptr gs:[disp32],imm8` done as the processor does it. -/
structure Compared (e e' : Emulator) (x y : Word) : Prop where
  eflags : FlagsOfSub x y e.cpu.eflags e'.cpu.eflags
  cpu : e'.cpu = { e.cpu with eip := e.cpu.eip + 8#32, eflags := e'.cpu.eflags }
  mem : e'.mem = e.mem

/-- The low bytes stand to each other as the operands do, their difference is not
negative, and EFLAGS already has the PF and OF of it. -/
structure LowBytesDecide (x y eflags : Word) : Prop where
  below : x.setWidth 8 < y.setWidth 8 ↔ x.toNat < y.toNat
  equal : x.setWidth 8 = y.setWidth 8 ↔ x = y
  nonneg : (x - y).msb = false
  parity : flagSet .pf eflags = evenParity (x - y)
  overflow : flagSet .of eflags = (x.msb && !y.msb)

theorem cmpEFlags_flags (eflags : Word) (A B : Byte) :
    flagSet .cf (cmpEFlags eflags A B) = decide (A < B) ∧
    flagSet .zf (cmpEFlags eflags A B) = decide (B = A) ∧
    flagSet .sf (cmpEFlags eflags A B) = false ∧
    flagSet .pf (cmpEFlags eflags A B) = flagSet .pf eflags ∧
    flagSet .of (cmpEFlags eflags A B) = flagSet .of eflags := by
  rw [cmpEFlags_eq]
  simp [flagSet_setFlag_ne]

/-- A condition code looks at no flag but the five. -/
theorem taken_congr {after reference : Word}
    (h : ∀ f : Flag, f ≠ .af → flagSet f after = flagSet f reference) (c : Condition) :
    c.taken after = c.taken reference := by
  have hcf := h .cf Ia32.Flag.noConfusion
  have hzf := h .zf Ia32.Flag.noConfusion
  have hsf := h .sf Ia32.Flag.noConfusion
  have hof := h .of Ia32.Flag.noConfusion
  obtain ⟨test,negated⟩ := c
  cases test <;> simp only [Condition.taken, Test.eval, hcf, hzf, hsf, hof]

/-- Right flags make right jumps. -/
theorem FlagsOfSub.of_flags {x y before after : Word}
    (h : ∀ f : Flag, f ≠ .af → flagSet f after = flagSet f (subFlags x y false before))
    (hothers : ∀ k, OtherBit k → after.getLsbD k = before.getLsbD k) :
    FlagsOfSub x y before after where
  flags := h
  jumps := fun c => by rw [taken_congr h, taken_after_cmp]
  others := hothers

/-- When the low-byte comparison leaves the right flags. -/
theorem cmpEFlags_right_iff (x y eflags : Word) :
    FlagsOfSub x y eflags (cmpEFlags eflags (x.setWidth 8) (y.setWidth 8)) ↔
      LowBytesDecide x y eflags := by
  obtain ⟨hcf,hzf,hsf,hpf,hof⟩ := cmpEFlags_flags eflags (x.setWidth 8) (y.setWidth 8)
  constructor
  · intro h
    have hcf' := h.flags .cf Ia32.Flag.noConfusion
    have hzf' := h.flags .zf Ia32.Flag.noConfusion
    have hsf' := h.flags .sf Ia32.Flag.noConfusion
    have hpf' := h.flags .pf Ia32.Flag.noConfusion
    have hof' := h.flags .of Ia32.Flag.noConfusion
    rw [hcf, subFlags_cf, decide_eq_decide] at hcf'
    rw [hzf, subFlags_zf, decide_eq_decide] at hzf'
    rw [hsf, subFlags_sf] at hsf'
    rw [hpf, subFlags_pf] at hpf'
    rw [hof, subFlags_of, ← hsf'] at hof'
    refine ⟨hcf',eq_comm.trans hzf',hsf'.symm,hpf',hof'.trans ?_⟩
    cases x.msb <;> cases y.msb <;> rfl
  · intro h
    refine FlagsOfSub.of_flags ?_ (fun k hk => cmpEFlags_other hk ..)
    intro f hf
    cases f with
    | cf => rw [hcf, subFlags_cf, decide_eq_decide, h.below]
    | zf => rw [hzf, subFlags_zf, decide_eq_decide, eq_comm, h.equal]
    | sf => rw [hsf, subFlags_sf, h.nonneg]
    | pf => rw [hpf, subFlags_pf, h.parity]
    | of =>
      rw [hof, subFlags_of, h.overflow, h.nonneg]
      cases x.msb <;> cases y.msb <;> rfl
    | af => exact absurd rfl hf

/-- The emulated CMP, with GS loaded. -/
theorem cmp_effect (handleSyscall : Addr) {e : Emulator} (answer : Word) {base : Word}
    (hcode : Pattern.cmpImm.Matches e.toState) (hbase : gsBase e.tls = some base) :
    exceptionHandler handleSyscall e answer = (.continueExecution,
      { e with cpu := { e.cpu with
        eip := e.cpu.eip + 8#32
        eflags := cmpEFlags e.cpu.eflags
          ((read32 e.mem (base + pcDword e.toState 3)).setWidth 8) (pc e.toState 7) } }) := by
  rw [exceptionHandler_at handleSyscall e answer hcode]
  simp only [Pattern.handle, Pattern.address, withGsDword, gsReadDword,
    gsTranslateAddress_of_base hbase, Except.map]
  rfl

/-- The emulated CMP acts as the processor's exactly where the low bytes decide. -/
theorem cmp_as_processor_iff (handleSyscall : Addr) (e : Emulator) (answer base : Word)
    (hcode : Pattern.cmpImm.Matches e.toState) (hbase : gsBase e.tls = some base) :
    let x := read32 e.mem (base + pcDword e.toState 3)
    let y := Decoder.imm8 (pc e.toState) 7
    let r := exceptionHandler handleSyscall e answer
    r.1 = .continueExecution ∧ (Compared e r.2 x y ↔ LowBytesDecide x y e.cpu.eflags) := by
  intro x y r
  have heffect := cmp_effect handleSyscall answer hcode hbase
  rw [← Decoder.imm8_low (pc e.toState) 7] at heffect
  have hr : r = _ := heffect
  rw [hr]
  refine ⟨rfl,?_⟩
  rw [← cmpEFlags_right_iff]
  exact ⟨fun h => h.eflags,fun h => ⟨h,rfl,rfl⟩⟩

/-- Code at 1000h with GS based at 2000h, where a dword lies. -/
def gsContext (edx eflags dword : Word) (code : List Byte) : Emulator where
  cpu := ⟨0#32,0#32,edx,0#32,0#32,0#32,0#32,0#32,0x1000#32,eflags⟩
  mem := store (store (fun _ => 0#8) 0x1000#32 code) 0x2000#32 (bytes32 dword)
  tls := ⟨fun i => i == 5#32,fun i => if i = 5#32 then .descriptor 0 else .null,
    [⟨6#32,0x2000#32,0xfffff#32,0x51#32⟩],5#32⟩

/-- `cmp dword ptr gs:[0],0` where the dword is 100h: low byte zero, dword not. -/
def cmpContext : Emulator :=
  gsContext 0#32 0x2#32 0x100#32 [0x65#8,0x83#8,0x3d#8,0#8,0#8,0#8,0#8,0#8]

private theorem cmpContext_matches : Pattern.cmpImm.Matches cmpContext.toState :=
  ⟨by decide,by decide,by decide,trivial⟩

theorem cmpContext_iff :
    let r := exceptionHandler 0#32 cmpContext 0#32
    r.1 = .continueExecution ∧ (Compared cmpContext r.2
      (read32 cmpContext.mem (0x2000#32 + pcDword cmpContext.toState 3))
      (Decoder.imm8 (pc cmpContext.toState) 7) ↔
      LowBytesDecide (read32 cmpContext.mem (0x2000#32 + pcDword cmpContext.toState 3))
        (Decoder.imm8 (pc cmpContext.toState) 7) cmpContext.cpu.eflags) :=
  cmp_as_processor_iff 0#32 cmpContext 0#32 0x2000#32 cmpContext_matches rfl

/-- The handler calls 100h and 0 equal. -/
theorem cmpContext_wrong : Pattern.cmpImm.Matches cmpContext.toState ∧
    gsBase cmpContext.tls = some 0x2000#32 ∧
    ¬ Compared cmpContext (exceptionHandler 0#32 cmpContext 0#32).2
      (read32 cmpContext.mem (0x2000#32 + pcDword cmpContext.toState 3))
      (Decoder.imm8 (pc cmpContext.toState) 7) := by
  refine ⟨cmpContext_matches,rfl,?_⟩
  intro h
  exact absurd (h.eflags.flags .zf Ia32.Flag.noConfusion) (by decide)

/-- The three destinations. -/
def Pattern.xorRegister : Pattern → Option Reg
  | .xorEdx => some .edx
  | .xorEcx => some .ecx
  | .xorEax => some .eax
  | _ => none

/-- EFLAGS after a logical operation with result `z`. -/
structure FlagsOfLogic (z before after : Word) : Prop where
  flags : ∀ f : Flag, f ≠ .af → flagSet f after = flagSet f (logicFlags z before)
  others : ∀ k, OtherBit k → after.getLsbD k = before.getLsbD k

/-- `xor r32,dword ptr gs:[disp32]` done as the processor does it: the jump on
equality after it sees whether the two values were equal. -/
structure Xored (r : Reg) (e e' : Emulator) (v : Word) : Prop where
  eflags : FlagsOfLogic (e.cpu.get r ^^^ v) e.cpu.eflags e'.cpu.eflags
  equal : Condition.taken ⟨.e,false⟩ e'.cpu.eflags = true ↔ e.cpu.get r = v
  cpu : e'.cpu =
    { e.cpu.set (e.cpu.get r ^^^ v) r with
      eip := e.cpu.eip + 7#32
      eflags := e'.cpu.eflags }
  mem : e'.mem = e.mem

/-- EFLAGS is already what the exclusive or `z` calls for. -/
structure FlagsAwait (z eflags : Word) : Prop where
  carry : flagSet .cf eflags = false
  overflow : flagSet .of eflags = false
  zero : flagSet .zf eflags = decide (z = 0#32)
  sign : flagSet .sf eflags = z.msb
  parity : flagSet .pf eflags = evenParity z

theorem flagsOfLogic_same_iff (z eflags : Word) :
    FlagsOfLogic z eflags eflags ↔ FlagsAwait z eflags := by
  constructor
  · intro h
    constructor
    · rw [h.flags .cf Ia32.Flag.noConfusion, logicFlags_cf]
    · rw [h.flags .of Ia32.Flag.noConfusion, logicFlags_of]
    · rw [h.flags .zf Ia32.Flag.noConfusion, logicFlags_zf]
    · rw [h.flags .sf Ia32.Flag.noConfusion, logicFlags_sf]
    · rw [h.flags .pf Ia32.Flag.noConfusion, logicFlags_pf]
  · intro h
    refine ⟨?_,fun _ _ => rfl⟩
    intro f hf
    cases f with
    | cf => rw [h.carry, logicFlags_cf]
    | of => rw [h.overflow, logicFlags_of]
    | zf => rw [h.zero, logicFlags_zf]
    | sf => rw [h.sign, logicFlags_sf]
    | pf => rw [h.parity, logicFlags_pf]
    | af => exact absurd rfl hf

/-- The emulated XOR, with GS loaded: EFLAGS stays as it was. -/
theorem xor_effect (handleSyscall : Addr) {e : Emulator} (answer : Word) {base : Word}
    {p : Pattern} {r : Reg} (hp : p.xorRegister = some r) (hcode : p.Matches e.toState)
    (hbase : gsBase e.tls = some base) :
    exceptionHandler handleSyscall e answer = (.continueExecution,
      { e with cpu :=
        { e.cpu.set (e.cpu.get r ^^^ read32 e.mem (base + pcDword e.toState 3)) r with
          eip := e.cpu.eip + 7#32 } }) := by
  rw [exceptionHandler_at handleSyscall e answer hcode]
  cases p <;> cases hp <;>
    simp only [Pattern.handle, Pattern.address, withGsDword, gsReadDword,
      gsTranslateAddress_of_base hbase, Except.map] <;> rfl

private theorem set_eflags (c : Cpu) (v : Word) (r : Reg) : (c.set v r).eflags = c.eflags := by
  cases r <;> rfl

/-- The emulated XOR acts as the processor's exactly where the flags are right before it. -/
theorem xor_as_processor_iff (handleSyscall : Addr) (e : Emulator) (answer base : Word)
    (p : Pattern) (r : Reg) (hp : p.xorRegister = some r) (hcode : p.Matches e.toState)
    (hbase : gsBase e.tls = some base) :
    let v := read32 e.mem (base + pcDword e.toState 3)
    let result := exceptionHandler handleSyscall e answer
    result.1 = .continueExecution ∧
    (Xored r e result.2 v ↔ FlagsAwait (e.cpu.get r ^^^ v) e.cpu.eflags) := by
  intro v result
  have hresult : result = _ := xor_effect handleSyscall answer hp hcode hbase
  have hequal : e.cpu.get r ^^^ v = 0#32 ↔ e.cpu.get r = v := BitVec.xor_eq_zero_iff
  rw [hresult]
  refine ⟨rfl,?_⟩
  constructor
  · intro h
    have hflags := h.eflags
    simp only [set_eflags] at hflags
    exact (flagsOfLogic_same_iff ..).mp hflags
  · intro h
    refine ⟨?_,?_,?_,rfl⟩
    · simp only [set_eflags]
      exact (flagsOfLogic_same_iff ..).mpr h
    · simp only [set_eflags, Condition.taken, Test.eval, h.zero, hequal]
      simp
    · rfl

/-- `xor edx,dword ptr gs:[0]`: the two values are equal and ZF was clear. -/
def xorContext : Emulator :=
  gsContext 0xabcd#32 0x2#32 0xabcd#32 [0x65#8,0x33#8,0x15#8,0#8,0#8,0#8,0#8]

private theorem xorContext_matches : Pattern.xorEdx.Matches xorContext.toState :=
  ⟨by decide,by decide,by decide,trivial⟩

theorem xorContext_iff :
    let result := exceptionHandler 0#32 xorContext 0#32
    let v := read32 xorContext.mem (0x2000#32 + pcDword xorContext.toState 3)
    result.1 = .continueExecution ∧
    (Xored .edx xorContext result.2 v ↔
      FlagsAwait (xorContext.cpu.edx ^^^ v) xorContext.cpu.eflags) :=
  xor_as_processor_iff 0#32 xorContext 0#32 0x2000#32 .xorEdx .edx rfl xorContext_matches rfl

/-- A stack check that should pass: the jump sees the old, clear ZF. -/
theorem xorContext_wrong : Pattern.xorEdx.Matches xorContext.toState ∧
    gsBase xorContext.tls = some 0x2000#32 ∧
    ¬ Xored .edx xorContext (exceptionHandler 0#32 xorContext 0#32).2
      (read32 xorContext.mem (0x2000#32 + pcDword xorContext.toState 3)) := by
  refine ⟨xorContext_matches,rfl,?_⟩
  intro h
  exact absurd (h.equal.mpr (by decide)) (by decide)

end Line2.Lnexec
