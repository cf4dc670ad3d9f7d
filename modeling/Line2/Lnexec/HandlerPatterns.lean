import Line2.Lnexec.Intercept

/-! The thirteen encodings that the handler recognises, by their first bytes, and
what it does at each. No two of them can stand at one EIP. -/
namespace Line2.Lnexec
open Library.Memory Ia32

inductive Pattern
  | int80 | movGs
  | xorEdx | xorEcx | xorEax
  | loadMoffs | storeMoffs | storeImm | cmpImm
  | storeEcxAtEdx | storeEdxAtEax | loadEdiAtEdx | loadEaxAtEax
  deriving DecidableEq

/-- The bytes that the two switches look at. -/
def Pattern.bytes : Pattern → List Byte
  | .int80 => [0xcd#8,0x80#8]
  | .movGs => [0x8e#8,0xe8#8]
  | .xorEdx => [0x65#8,0x33#8,0x15#8]
  | .xorEcx => [0x65#8,0x33#8,0x0d#8]
  | .xorEax => [0x65#8,0x33#8,0x05#8]
  | .loadMoffs => [0x65#8,0xa1#8]
  | .storeMoffs => [0x65#8,0xa3#8]
  | .storeImm => [0x65#8,0xc7#8,0x00#8]
  | .cmpImm => [0x65#8,0x83#8,0x3d#8]
  | .storeEcxAtEdx => [0x65#8,0x89#8,0x0a#8]
  | .storeEdxAtEax => [0x65#8,0x89#8,0x10#8]
  | .loadEdiAtEdx => [0x65#8,0x8b#8,0x3a#8]
  | .loadEaxAtEax => [0x65#8,0x8b#8,0x00#8]

/-- The code from `PC[k]` on begins with the bytes. -/
def CodeAt (s : State) : Nat → List Byte → Prop
  | _, [] => True
  | k, b :: bs => pc s k = b ∧ CodeAt s (k + 1) bs

def Pattern.Matches (p : Pattern) (s : State) : Prop := CodeAt s 0 p.bytes

/-- The offset from the GS base that the instruction addresses. -/
def Pattern.address (s : State) : Pattern → Word
  | .int80 | .movGs => 0#32
  | .xorEdx | .xorEcx | .xorEax | .cmpImm => pcDword s 3
  | .loadMoffs | .storeMoffs => pcDword s 2
  | .storeImm | .storeEdxAtEax | .loadEaxAtEax => s.cpu.eax
  | .storeEcxAtEdx | .loadEdiAtEdx => s.cpu.edx

/-- What the handler does at the pattern. -/
def Pattern.handle (handleSyscall : Addr) (e : Emulator) (answer : Word) (p : Pattern) :
    Disposition × Emulator :=
  let cpu := e.cpu
  let Address := p.address e.toState
  match p with
  | .int80 =>
    (.continueExecution,{ e with
      cpu := { cpu with esp := cpu.esp - 4#32, eip := handleSyscall }
      mem := write32 e.mem (cpu.esp - 4#32) (cpu.eip + 2#32) })
  | .movGs => (.continueExecution,⟨e.toState.advance 2,gsLoad e.tls (cpu.eax.setWidth 16) answer⟩)
  | .xorEdx => withGsDword e Address answer 7 (fun v => { cpu with edx := cpu.edx ^^^ v })
  | .xorEcx => withGsDword e Address answer 7 (fun v => { cpu with ecx := cpu.ecx ^^^ v })
  | .xorEax => withGsDword e Address answer 7 (fun v => { cpu with eax := cpu.eax ^^^ v })
  | .loadMoffs => withGsDword e Address answer 6 (fun v => { cpu with eax := v })
  | .storeMoffs => storeGsDword e Address cpu.eax answer 6
  | .storeImm => storeGsDword e Address (pcDword e.toState 3) answer 7
  | .cmpImm =>
    withGsDword e Address answer 8
      (fun v => { cpu with eflags := cmpEFlags cpu.eflags (v.setWidth 8) (pc e.toState 7) })
  | .storeEcxAtEdx => storeGsDword e Address cpu.ecx answer 3
  | .storeEdxAtEax => storeGsDword e Address cpu.edx answer 3
  | .loadEdiAtEdx => withGsDword e Address answer 3 (fun v => { cpu with edi := v })
  | .loadEaxAtEax => withGsDword e Address answer 3 (fun v => { cpu with eax := v })

/-- Two strings that begin the same code begin each other. -/
theorem CodeAt.comparable {s : State} {k : Nat} {bs cs : List Byte} (hb : CodeAt s k bs)
    (hc : CodeAt s k cs) : bs <+: cs ∨ cs <+: bs := by
  induction bs generalizing k cs with
  | nil => exact .inl List.nil_prefix
  | cons b bs ih =>
    cases cs with
    | nil => exact .inr List.nil_prefix
    | cons c cs =>
      obtain ⟨hb0,hbs⟩ := hb
      obtain ⟨hc0,hcs⟩ := hc
      obtain rfl := hb0.symm.trans hc0
      rcases ih hbs hcs with h | h
      · exact .inl (List.cons_prefix_cons.mpr ⟨rfl,h⟩)
      · exact .inr (List.cons_prefix_cons.mpr ⟨rfl,h⟩)

theorem Pattern.bytes_apart {p q : Pattern} (h : p.bytes <+: q.bytes) : p = q := by
  revert h
  cases p <;> cases q <;> decide

theorem Pattern.Matches.unique {p q : Pattern} {s : State} (hp : p.Matches s)
    (hq : q.Matches s) : p = q := by
  rcases CodeAt.comparable hp hq with h | h
  · exact Pattern.bytes_apart h
  · exact (Pattern.bytes_apart h).symm

section
variable (handleSyscall : Addr) (e : Emulator) (answer : Word)

/-- Past the `int 80h` test, the GS prefix leads to the big switch. -/
theorem exceptionHandler_gs (hgs : pc e.toState 0 = 0x65#8) :
    exceptionHandler handleSyscall e answer = handleGsIstruction e answer := by
  simp [exceptionHandler, tryHandleInt80, tryHandleGS, hgs]

/-- At a pattern the handler does what the pattern calls for. -/
theorem exceptionHandler_at {p : Pattern} (h : p.Matches e.toState) :
    exceptionHandler handleSyscall e answer = p.handle handleSyscall e answer := by
  cases p with
  | int80 =>
    obtain ⟨h0,h1,_⟩ := h
    simp [exceptionHandler, tryHandleInt80, h0, h1, Pattern.handle]
  | movGs =>
    obtain ⟨h0,h1,_⟩ := h
    simp [exceptionHandler, tryHandleInt80, tryHandleGS, h0, h1, Pattern.handle]
  | loadMoffs =>
    obtain ⟨h0,h1,_⟩ := h
    rw [exceptionHandler_gs handleSyscall e answer h0]
    simp [handleGsIstruction, h1, Pattern.handle, Pattern.address]
  | storeMoffs =>
    obtain ⟨h0,h1,_⟩ := h
    rw [exceptionHandler_gs handleSyscall e answer h0]
    simp [handleGsIstruction, h1, Pattern.handle, Pattern.address]
  | _ =>
    obtain ⟨h0,h1,h2,_⟩ := h
    rw [exceptionHandler_gs handleSyscall e answer h0]
    simp [handleGsIstruction, h1, h2, Pattern.handle, Pattern.address]

variable {e}

private theorem opcode_ne (h : ∀ p : Pattern, ¬ p.Matches e.toState)
    (h0 : pc e.toState 0 = 0x65#8) (p : Pattern) {op : Byte} (hp : p.bytes = [0x65#8,op]) :
    pc e.toState 1 ≠ op := by
  intro h1
  refine h p ?_
  rw [Pattern.Matches, hp]
  exact ⟨h0,h1,trivial⟩

private theorem modrm_ne (h : ∀ p : Pattern, ¬ p.Matches e.toState)
    (h0 : pc e.toState 0 = 0x65#8) {op : Byte} (h1 : pc e.toState 1 = op) (p : Pattern)
    {modrm : Byte} (hp : p.bytes = [0x65#8,op,modrm]) : pc e.toState 2 ≠ modrm := by
  intro h2
  refine h p ?_
  rw [Pattern.Matches, hp]
  exact ⟨h0,h1,h2,trivial⟩

private theorem handleGsIstruction_unmatched (h : ∀ p : Pattern, ¬ p.Matches e.toState)
    (h0 : pc e.toState 0 = 0x65#8) : handleGsIstruction e answer = (.continueSearch,e) ∨
      handleGsIstruction e answer = (.exit,e) := by
  unfold handleGsIstruction
  dsimp only
  rw [if_neg (opcode_ne h h0 .loadMoffs rfl), if_neg (opcode_ne h h0 .storeMoffs rfl)]
  split
  · rename_i h1
    rw [if_neg (modrm_ne h h0 h1 .xorEdx rfl), if_neg (modrm_ne h h0 h1 .xorEcx rfl),
      if_neg (modrm_ne h h0 h1 .xorEax rfl)]
    exact .inl rfl
  split
  · rename_i h1
    rw [if_neg (modrm_ne h h0 h1 .storeImm rfl)]
    exact .inl rfl
  split
  · rename_i h1
    rw [if_neg (modrm_ne h h0 h1 .cmpImm rfl)]
    exact .inl rfl
  split
  · rename_i h1
    rw [if_neg (modrm_ne h h0 h1 .storeEcxAtEdx rfl), if_neg (modrm_ne h h0 h1 .storeEdxAtEax rfl)]
    exact .inl rfl
  split
  · rename_i h1
    rw [if_neg (modrm_ne h h0 h1 .loadEdiAtEdx rfl), if_neg (modrm_ne h h0 h1 .loadEaxAtEax rfl)]
    exact .inl rfl
  · exact .inr rfl

/-- At any other code it changes nothing: it passes the exception on, or exits. -/
theorem exceptionHandler_unmatched (h : ∀ p : Pattern, ¬ p.Matches e.toState) :
    exceptionHandler handleSyscall e answer = (.continueSearch,e) ∨
      exceptionHandler handleSyscall e answer = (.exit,e) := by
  have hint : ¬ (pc e.toState 0 = 0xcd#8 ∧ pc e.toState 1 = 0x80#8) :=
    fun hc => h .int80 ⟨hc.1,hc.2,trivial⟩
  have hmov : pc e.toState 0 = 0x8e#8 → pc e.toState 1 ≠ 0xe8#8 :=
    fun h0 h1 => h .movGs ⟨h0,h1,trivial⟩
  unfold exceptionHandler tryHandleInt80 tryHandleGS
  rw [if_neg hint, if_pos rfl]
  split
  · rename_i h0
    rw [if_neg (hmov h0)]
    exact .inl rfl
  split
  · rename_i h0
    exact handleGsIstruction_unmatched answer h h0
  · exact .inl rfl

end
end Line2.Lnexec
