import Line2.Lnexec.HandlerPatterns
import Line2.Lnexec.ThreadArea
import Line2.Ia32.Conditions

/-! The frame of the exception handler. It runs for every exception of the process,
and what it does not recognise it leaves untouched. -/
namespace Line2.Lnexec
open Library.Memory Ia32

/-- mov gs changes the slot that shadows GS. The slot may be allocated on the way. -/
structure ShadowOnly (t t' : Tls) : Prop where
  heap : t'.heap = t.heap
  slot : ∀ i, i ≠ t'.GsTls → t'.slot i = t.slot i
  allocated : ∀ i, i ≠ t'.GsTls → t'.allocated i = t.allocated i
  kept : t.GsTls ≠ 0#32 → t'.GsTls = t.GsTls ∧ t'.allocated = t.allocated

/-- The context is as before, EIP apart. -/
def OnlyEip (c c' : Cpu) : Prop := c' = { c with eip := c'.eip }

/-- EIP and one register may have changed. -/
def OnlyRegister (r : Reg) (c c' : Cpu) : Prop := ∃ v, c' = { c with eip := c'.eip }.set v r

/-- The bytes outside the dword at `a` are as before. -/
def OnlyDword (a : Addr) (m m' : Mem) : Prop := ∀ x, ¬ Within a 4 x → m' x = m x

/-- All that a recognised instruction may change. -/
def Pattern.Confined (p : Pattern) (e e' : Emulator) : Prop :=
  match p with
  | .int80 =>
    e'.cpu = { e.cpu with esp := e.cpu.esp - 4#32, eip := e'.cpu.eip } ∧
    read32 e'.mem e'.cpu.esp = e.cpu.eip + 2#32 ∧ OnlyDword e'.cpu.esp e.mem e'.mem ∧
    e'.tls = e.tls
  | .movGs => OnlyEip e.cpu e'.cpu ∧ e'.mem = e.mem ∧ ShadowOnly e.tls e'.tls
  | .xorEdx => OnlyRegister .edx e.cpu e'.cpu ∧ e'.mem = e.mem ∧ e'.tls = e.tls
  | .xorEcx => OnlyRegister .ecx e.cpu e'.cpu ∧ e'.mem = e.mem ∧ e'.tls = e.tls
  | .xorEax | .loadMoffs | .loadEaxAtEax =>
    OnlyRegister .eax e.cpu e'.cpu ∧ e'.mem = e.mem ∧ e'.tls = e.tls
  | .loadEdiAtEdx => OnlyRegister .edi e.cpu e'.cpu ∧ e'.mem = e.mem ∧ e'.tls = e.tls
  | .storeMoffs | .storeImm | .storeEcxAtEdx | .storeEdxAtEax =>
    OnlyEip e.cpu e'.cpu ∧ e'.tls = e.tls ∧
    ∃ base, gsBase e.tls = some base ∧ OnlyDword (base + p.address e.toState) e.mem e'.mem
  | .cmpImm =>
    e'.cpu = { e.cpu with eip := e'.cpu.eip, eflags := e'.cpu.eflags } ∧
    (∀ k, OtherBit k → e'.cpu.eflags.getLsbD k = e.cpu.eflags.getLsbD k) ∧
    e'.mem = e.mem ∧ e'.tls = e.tls

/-- CurrentGs allocates at most the slot it answers. -/
theorem currentGs_shadowOnly (t : Tls) (answer : Word) :
    ShadowOnly t (currentGs t answer).2 ∧
    (currentGs t answer).1 = (currentGs t answer).2.GsTls := by
  by_cases hz : t.GsTls = 0#32
  · by_cases ha : answer = TLS_OUT_OF_INDEXES
    · have hcur : currentGs t answer = (answer,{ t with GsTls := answer }) := by
        rw [currentGs, if_pos hz, tlsAlloc, if_pos ha]
      rw [hcur]
      exact ⟨⟨rfl,fun _ _ => rfl,fun _ _ => rfl,fun h => absurd hz h⟩,rfl⟩
    · have hcur : currentGs t answer = (answer,{ t.take answer with GsTls := answer }) := by
        rw [currentGs, if_pos hz, tlsAlloc_free ha]
      rw [hcur]
      exact ⟨⟨rfl,fun _ hi => Tls.take_slot hi,fun _ hi => Tls.take_allocated hi,
        fun h => absurd hz h⟩,rfl⟩
  · rw [currentGs_of_ne_zero hz]
    exact ⟨⟨rfl,fun _ _ => rfl,fun _ _ => rfl,fun _ => ⟨rfl,rfl⟩⟩,rfl⟩

theorem gsLoad_shadowOnly (t : Tls) (Value : BitVec 16) (answer : Word) :
    ShadowOnly t (gsLoad t Value answer) := by
  obtain ⟨hsame,hindex⟩ := currentGs_shadowOnly t answer
  have hload : gsLoad t Value answer = tlsSetValue (currentGs t answer).2
    (currentGs t answer).2.GsTls (tlsGetValue t ((Value >>> 3).setWidth 32)) := by
    rw [← hindex]
    rfl
  rw [hload]
  constructor
  · rw [tlsSetValue_heap, hsame.heap]
  · intro i hi
    rw [tlsSetValue_GsTls] at hi
    rw [tlsSetValue_ne hi, hsame.slot i hi]
  · intro i hi
    rw [tlsSetValue_GsTls] at hi
    rw [tlsSetValue_allocated, hsame.allocated i hi]
  · intro h
    rw [tlsSetValue_GsTls, tlsSetValue_allocated]
    exact hsame.kept h

/-- The handler's comparison sets CF and ZF and clears SF. -/
theorem cmpEFlags_eq (eflags : Word) (A B : Byte) : cmpEFlags eflags A B =
    setFlag .cf (decide (A < B)) (setFlag .zf (decide (B = A)) (setFlag .sf false eflags)) := by
  have hcf : 0x01#32 = Flag.cf.mask := rfl
  have hzf : 0x40#32 = Flag.zf.mask := rfl
  have hsf : 0x80#32 = Flag.sf.mask := rfl
  apply BitVec.eq_of_getLsbD_eq
  intro k hk
  have hchosen (f : Flag) (c : Prop) [Decidable c] :
      (if c then f.mask else 0#32).getLsbD k = (decide c && decide (k = f.bit)) := by
    split
    · rename_i hc
      rw [f.mask_bit, decide_eq_true hc, Bool.true_and]
    · rename_i hc
      rw [BitVec.getLsbD_zero, decide_eq_false hc, Bool.false_and]
  simp only [cmpEFlags, hcf, hzf, hsf, BitVec.getLsbD_or, BitVec.getLsbD_and, BitVec.getLsbD_not,
    hchosen, Flag.mask_bit, setFlag_bit, hk, decide_true, Bool.true_and, Flag.bit]
  grind

theorem cmpEFlags_other {k : Nat} (h : OtherBit k) (eflags : Word) (A B : Byte) :
    (cmpEFlags eflags A B).getLsbD k = eflags.getLsbD k := by
  rw [cmpEFlags_eq, setFlag_other h, setFlag_other h, setFlag_other h]

theorem Pattern.handle_confined {handleSyscall : Addr} {e e' : Emulator} {answer : Word}
    (p : Pattern) (h : p.handle handleSyscall e answer = (.continueExecution,e')) :
    p.Confined e e' := by
  cases p with
  | int80 =>
    obtain ⟨_,rfl⟩ := Prod.mk.inj h
    refine ⟨rfl,?_,?_,rfl⟩
    · exact read32_write32 ..
    · intro x hx
      exact write32_outside _ _ _ _ hx
  | movGs =>
    obtain ⟨_,rfl⟩ := Prod.mk.inj h
    exact ⟨rfl,rfl,gsLoad_shadowOnly ..⟩
  | cmpImm =>
    obtain ⟨b,_,rfl⟩ := withGsDword_ok h
    exact ⟨rfl,fun k hk => cmpEFlags_other hk ..,rfl,rfl⟩
  | storeMoffs =>
    obtain ⟨b,hb,rfl⟩ := storeGsDword_ok h
    exact ⟨rfl,rfl,b,hb,fun x hx => write32_outside _ _ _ _ hx⟩
  | storeImm =>
    obtain ⟨b,hb,rfl⟩ := storeGsDword_ok h
    exact ⟨rfl,rfl,b,hb,fun x hx => write32_outside _ _ _ _ hx⟩
  | storeEcxAtEdx =>
    obtain ⟨b,hb,rfl⟩ := storeGsDword_ok h
    exact ⟨rfl,rfl,b,hb,fun x hx => write32_outside _ _ _ _ hx⟩
  | storeEdxAtEax =>
    obtain ⟨b,hb,rfl⟩ := storeGsDword_ok h
    exact ⟨rfl,rfl,b,hb,fun x hx => write32_outside _ _ _ _ hx⟩
  | _ =>
    obtain ⟨b,_,rfl⟩ := withGsDword_ok h
    exact ⟨⟨_,rfl⟩,rfl,rfl⟩

/-- A recognised instruction is executed, or its access faults. -/
theorem Pattern.handle_not_search (p : Pattern) (handleSyscall : Addr) (e : Emulator)
    (answer : Word) : (p.handle handleSyscall e answer).1 ≠ .continueSearch := by
  have hread (Address : Word) (n : Nat) (use : Word → Cpu) :
      (withGsDword e Address answer n use).1 ≠ .continueSearch := by
    unfold withGsDword
    dsimp only
    split <;> exact Disposition.noConfusion
  have hstore (Address Data : Word) (n : Nat) :
      (storeGsDword e Address Data answer n).1 ≠ .continueSearch := by
    unfold storeGsDword
    dsimp only
    split <;> exact Disposition.noConfusion
  cases p <;> first | exact Disposition.noConfusion | apply hread | apply hstore

/-- Whatever the code at EIP, an exception passed on leaves everything as it was; one
that is handled was one pattern's, and only that pattern's effect is there. -/
theorem handler_frame (handleSyscall : Addr) (e e' : Emulator) (answer : Word) :
    (exceptionHandler handleSyscall e answer = (.continueSearch,e') → e' = e) ∧
    (exceptionHandler handleSyscall e answer = (.continueExecution,e') →
      ∃ p : Pattern, p.Matches e.toState ∧ (∀ q : Pattern, q.Matches e.toState → q = p) ∧
        p.Confined e e') := by
  by_cases hmatch : ∃ p : Pattern, p.Matches e.toState
  · obtain ⟨p,hp⟩ := hmatch
    rw [exceptionHandler_at handleSyscall e answer hp]
    constructor
    · intro h
      exact absurd (congrArg Prod.fst h) (p.handle_not_search handleSyscall e answer)
    · intro h
      exact ⟨p,hp,fun q hq => hq.unique hp,p.handle_confined h⟩
  · have hnone : ∀ p : Pattern, ¬ p.Matches e.toState := fun p hp => hmatch ⟨p,hp⟩
    rcases exceptionHandler_unmatched handleSyscall answer hnone with hr | hr
    · rw [hr]
      refine ⟨fun h => (Prod.mk.inj h).2.symm,?_⟩
      intro h
      cases (Prod.mk.inj h).1
    · rw [hr]
      constructor <;> intro h <;> cases (Prod.mk.inj h).1

end Line2.Lnexec
