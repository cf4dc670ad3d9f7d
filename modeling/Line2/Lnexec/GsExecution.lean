import Line2.Lnexec.GsDecoding

/-! An emulated GS instruction against the processor's: the handler's switch knows MOV, XOR
and CMP only, and of these three it gets everything right but the flags. -/
namespace Line2.Lnexec
open Library.Memory Ia32

/-- The instruction was executed with this GS base, up to the flags of an XOR or a CMP. -/
structure Executed (base : Word) (d : Decoded) (s s' : State) : Prop where
  mem : s'.mem = (d.instr.exec base d.length s).mem
  cpu : s'.cpu = { (d.instr.exec base d.length s).cpu with eflags := s'.cpu.eflags }
  mov : d.instr.IsMov → s' = d.instr.exec base d.length s

/-- The instructions that the handler emulates. -/
inductive Emulated : Instr → Prop
  | mov (dst src : Operand) : Emulated (.mov dst src)
  | xor (dst src : Operand) : Emulated (.alu .xor dst src)
  | cmp (dst src : Operand) : Emulated (.alu .cmp dst src)

theorem Pattern.Matches.emulated {s : State} {p : Pattern} (hp : p.Matches s)
    (hgs : pc s 0 = 0x65#8) {d : Decoded} (hd : decode (pc s) = some d) : Emulated d.instr := by
  have hother {b : Byte} (hb : b ≠ 0x65#8) : pc s 0 ≠ b := fun h => hb (h.symm.trans hgs)
  have hop : (Decoder.opcode (pc s) 1).map (fun q => (⟨true,q.1,q.2 + 1⟩ : Decoded)) = some d := by
    simpa [decode, hgs] using hd
  obtain ⟨q,hq,rfl⟩ := Option.map_eq_some_iff.mp hop
  cases p with
  | int80 => exact absurd hp.1 (hother (by decide))
  | movGs => exact absurd hp.1 (hother (by decide))
  | xorEdx | xorEcx | xorEax =>
    obtain ⟨_,h1,_⟩ := hp
    simp [Decoder.opcode, h1, Decoder.alu] at hq
    obtain rfl := hq
    exact .xor _ _
  | cmpImm =>
    obtain ⟨_,h1,h2,_⟩ := hp
    simp [Decoder.opcode, h1, Decoder.modRM_disp32 h2, Decoder.alu] at hq
    obtain rfl := hq
    exact .cmp _ _
  | loadMoffs | storeMoffs | storeEcxAtEdx | storeEdxAtEax | loadEdiAtEdx | loadEaxAtEax =>
    obtain ⟨_,h1,_⟩ := hp
    simp [Decoder.opcode, h1] at hq
    obtain rfl := hq
    exact .mov _ _
  | storeImm =>
    obtain ⟨_,h1,h2,_⟩ := hp
    simp [Decoder.opcode, h1, Decoder.modRM_base h2] at hq
    obtain rfl := hq
    exact .mov _ _

theorem Emulated.executed {d : Decoded} (h : Emulated d.instr) (base : Word) (s : State) :
    Executed base d s (emulatedEffect base d.length s d.instr) := by
  obtain ⟨gs,i,n⟩ := d
  change Emulated i at h
  cases h with
  | mov dst src => exact ⟨rfl,rfl,fun _ => rfl⟩
  | xor dst src =>
    refine ⟨?_,?_,fun hmov => hmov.elim⟩
    · cases dst <;> rfl
    · cases dst with
      | reg r => cases r <;> rfl
      | mem a => rfl
      | imm v => rfl
  | cmp dst src => exact ⟨rfl,rfl,fun hmov => hmov.elim⟩

/-- How an access through GS ends, by what became of its address. -/
def accessed : Except Fault Addr → Disposition
  | .ok _ => .continueExecution
  | .error f => .fault f

theorem withGsDword_disposition (e : Emulator) (Address answer : Word) (n : Nat)
    (use : Word → Cpu) : (withGsDword e Address answer n use).1 =
      accessed (gsTranslateAddress e.tls Address answer).1 := by
  simp only [withGsDword, gsReadDword]
  cases (gsTranslateAddress e.tls Address answer).1 <;> rfl

theorem storeGsDword_disposition (e : Emulator) (Address Data answer : Word) (n : Nat) :
    (storeGsDword e Address Data answer n).1 =
      accessed (gsTranslateAddress e.tls Address answer).1 := by
  simp only [storeGsDword, gsWriteDWord]
  cases (gsTranslateAddress e.tls Address answer).1 <;> rfl

/-- Every pattern past the first two is an access through GS. -/
theorem Pattern.handle_disposition {p : Pattern} (hint : p ≠ .int80) (hmov : p ≠ .movGs)
    (handleSyscall : Addr) (e : Emulator) (answer : Word) : (p.handle handleSyscall e answer).1 =
      accessed (gsTranslateAddress e.tls (p.address e.toState) answer).1 := by
  cases p with
  | int80 => exact absurd rfl hint
  | movGs => exact absurd rfl hmov
  | storeMoffs | storeImm | storeEcxAtEdx | storeEdxAtEax => exact storeGsDword_disposition ..
  | _ => exact withGsDword_disposition ..

/-- The slot of GS holds a pointer that is none of set_thread_area's. -/
def GsStray (t : Tls) : Prop := t.GsTls ≠ 0#32 ∧ ∃ v, tlsGetValue t t.GsTls = .host v

/-- Where it does, the handler takes what lies there for a descriptor. -/
theorem accessed_hostPointer_iff (t : Tls) (Address answer : Word) :
    (∃ v, accessed (gsTranslateAddress t Address answer).1 = .fault (.hostPointer v)) ↔
      GsStray t := by
  by_cases hz : t.GsTls = 0#32
  · refine iff_of_false ?_ (fun h => h.1 hz)
    have hnull := tlsGetValue_fresh t answer
    have hslot : tlsGetValue { (tlsAlloc t answer).2 with GsTls := (tlsAlloc t answer).1 }
        (tlsAlloc t answer).1 = .null := hnull
    simp [gsTranslateAddress, currentGs, hz, hslot, Except.map, accessed]
  · rw [gsTranslateAddress, currentGs_of_ne_zero hz, GsStray, and_iff_right hz]
    cases hv : tlsGetValue t t.GsTls with
    | null => simp [hv, baseAddr, Except.map, accessed]
    | host v => simp [hv, baseAddr, Except.map, accessed]
    | descriptor k =>
      cases hk : t.heap[k]? <;> simp [hv, baseAddr, hk, Except.map, accessed]

/-- A fault that the handler takes care of is one of three. -/
theorem continues_cases {handleSyscall : Addr} {e e' : Emulator} {answer : Word}
    (h : exceptionHandler handleSyscall e answer = (.continueExecution,e')) :
    (pc e.toState 0 = 0xcd#8 ∧ pc e.toState 1 = 0x80#8) ∨
    ((pc e.toState 0 = 0x8e#8 ∧ pc e.toState 1 = 0xe8#8) ∧
      e' = ⟨e.toState.advance 2,gsLoad e.tls (e.cpu.eax.setWidth 16) answer⟩) ∨
    (pc e.toState 0 = 0x65#8 ∧ ∃ p : Pattern, p.Matches e.toState) := by
  by_cases hmatch : ∃ p : Pattern, p.Matches e.toState
  · obtain ⟨p,hp⟩ := hmatch
    cases p with
    | int80 => exact .inl ⟨hp.1,hp.2.1⟩
    | movGs =>
      rw [exceptionHandler_at handleSyscall e answer hp] at h
      exact .inr (.inl ⟨⟨hp.1,hp.2.1⟩,(congrArg Prod.snd h).symm⟩)
    | _ => exact .inr (.inr ⟨hp.1,_,hp⟩)
  · rcases exceptionHandler_unmatched handleSyscall answer (fun p hp => hmatch ⟨p,hp⟩) with hr | hr
    · rw [hr] at h
      cases h
    · rw [hr] at h
      cases h

/-- Past a GS prefix the handler executes the instruction that is there. -/
theorem gs_executed {handleSyscall : Addr} {e e' : Emulator} {answer : Word} {p : Pattern}
    (hgs : pc e.toState 0 = 0x65#8) (hp : p.Matches e.toState)
    (h : exceptionHandler handleSyscall e answer = (.continueExecution,e')) :
    ∃ b d, gsBase e.tls = some b ∧ decode (pc e.toState) = some d ∧ d.gs = true ∧
      Executed b d e.toState e'.toState ∧ e'.tls = e.tls := by
  have hout := exceptionHandler_outcome handleSyscall e answer hgs
  rw [h] at hout
  generalize hr : (Disposition.continueExecution,e') = r at hout
  cases hout with
  | search => cases hr
  | exit => cases hr
  | read hd heip heff =>
    obtain ⟨b,hb,rfl⟩ := withGsDword_ok hr.symm
    exact ⟨b,_,hb,hd,rfl,heff b ▸ (hp.emulated hgs hd).executed b e.toState,rfl⟩
  | store hd heff =>
    obtain ⟨b,hb,rfl⟩ := storeGsDword_ok hr.symm
    exact ⟨b,_,hb,hd,rfl,heff b ▸ (hp.emulated hgs hd).executed b e.toState,rfl⟩

end Line2.Lnexec
