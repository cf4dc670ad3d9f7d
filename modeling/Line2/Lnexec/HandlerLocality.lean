import Line2.Library.Locality
import Line2.Lnexec.Messages
import Line2.Lnexec.TableSafety

/-! The exception handler and the trampoline over memories that differ in some bytes. What
they come to is decided by the registers, the code and the dword that GS addresses. -/
namespace Line2.Lnexec
open Library.Memory Library.Locality Ia32

/-- The states differ in bytes of `D` only. -/
structure Alike (D : Addr → Prop) (s s' : State) : Prop where
  cpu : s'.cpu = s.cpu
  mem : AgreeOutside D s.mem s'.mem

section states
variable {D : Addr → Prop} {s s' : State} (h : Alike D s s')
include h

theorem Alike.pc (hcode : Avoids (Within s.cpu.eip 8) D) {k : Nat} (hk : k < 8) :
    pc s' k = pc s k := by
  rw [Lnexec.pc, Lnexec.pc, h.cpu]
  apply h.mem
  apply hcode
  rw [Within, offset_toNat _ (by omega)]
  exact hk

theorem Alike.pcDword (hcode : Avoids (Within s.cpu.eip 8) D) {k : Nat} (hk : k + 4 ≤ 8) :
    pcDword s' k = pcDword s k := by
  rw [Lnexec.pcDword, Lnexec.pcDword, h.cpu]
  refine h.mem.read32 (hcode.mono ?_)
  intro x hx
  simp only [Within] at *
  bv_omega

theorem Alike.push (r : Reg) : Alike D (Asm.exec s (.push r)) (Asm.exec s' (.push r)) := by
  refine ⟨?_,?_⟩
  · simp only [Asm.exec, h.cpu]
  · simp only [Asm.exec, h.cpu]
    exact h.mem.store _ _

theorem Alike.call (target : Addr) :
    Alike D (Asm.exec s (.call target)) (Asm.exec s' (.call target)) := by
  refine ⟨?_,?_⟩
  · simp only [Asm.exec, h.cpu]
  · simp only [Asm.exec, h.cpu]
    exact h.mem.store _ _

theorem Alike.atInt80 (hcode : Avoids (Within s.cpu.eip 8) D) : AtInt80 s' ↔ AtInt80 s := by
  rw [AtInt80, AtInt80, h.pc hcode (by decide), h.pc hcode (by decide)]

/-- The trampoline's pushes and the call look at registers only. -/
theorem Alike.dispatchEntry (host : HostCode) (hat : AtInt80 s) (hat' : AtInt80 s') :
    Alike D (dispatchEntry host s) (dispatchEntry host s') := by
  have htrap : Alike D (tryHandleInt80 host.handleSyscall s).2
      (tryHandleInt80 host.handleSyscall s').2 := by
    unfold AtInt80 at hat hat'
    simp only [tryHandleInt80, if_pos hat, if_pos hat', h.cpu]
    exact ⟨rfl,h.mem.store _ _⟩
  exact ((((((htrap.push .ebp).push .edi).push .esi).push .edx).push .ecx).push .ebx).push .eax
    |>.call host.dispatchSyscall

theorem Alike.matches_iff (hcode : Avoids (Within s.cpu.eip 8) D) (p : Pattern) :
    p.Matches s' ↔ p.Matches s := by
  have h0 := h.pc hcode (k := 0) (by decide)
  have h1 := h.pc hcode (k := 1) (by decide)
  have h2 := h.pc hcode (k := 2) (by decide)
  cases p <;>
    simp only [Pattern.Matches, Pattern.bytes, CodeAt, Nat.zero_add, Nat.reduceAdd, h0, h1, h2]

theorem Alike.address (hcode : Avoids (Within s.cpu.eip 8) D) (p : Pattern) :
    p.address s' = p.address s := by
  cases p <;> simp only [Pattern.address, h.cpu, h.pcDword hcode (k := 2) (by decide),
    h.pcDword hcode (k := 3) (by decide)]

end states

/-- An exception handled over either memory: the same but for the hidden bytes, and of these
the second run has left `m'`. -/
structure HandledAlike (D : Addr → Prop) (m' : Mem) (r r' : Disposition × Emulator) : Prop where
  disposition : r'.1 = r.1
  tls : r'.2.tls = r.2.tls
  state : Alike D r.2.toState r'.2.toState
  hidden : ∀ x, D x → r'.2.mem x = m' x

section handler
variable {D : Addr → Prop} {e e' : Emulator} (h : Alike D e.toState e'.toState)
  (ht : e'.tls = e.tls)
include h ht

theorem withGsDword_alike {Address : Word}
    (hD : ∀ b, gsBase e.tls = some b → Avoids (Within (b + Address) 4) D) (answer : Word) (n : Nat)
    (use : Word → Cpu) :
    HandledAlike D e'.mem (withGsDword e Address answer n use)
      (withGsDword e' Address answer n use) := by
  simp only [withGsDword, gsReadDword, ht]
  cases hr : gsTranslateAddress e.tls Address answer with
  | mk r t =>
    cases r with
    | error f => exact ⟨rfl,rfl,h,fun _ _ => rfl⟩
    | ok a =>
      obtain ⟨b,hb,rfl,rfl⟩ := gsBase_of_translate hr
      have hdword : read32 e'.mem (b + Address) = read32 e.mem (b + Address) :=
        h.mem.read32 (hD b hb)
      simp only [Except.map, hdword]
      exact ⟨rfl,rfl,⟨rfl,h.mem⟩,fun _ _ => rfl⟩

theorem storeGsDword_alike {Address : Word}
    (hD : ∀ b, gsBase e.tls = some b → Avoids (Within (b + Address) 4) D) (Data answer : Word)
    (n : Nat) :
    HandledAlike D e'.mem (storeGsDword e Address Data answer n)
      (storeGsDword e' Address Data answer n) := by
  simp only [storeGsDword, gsWriteDWord, ht]
  cases hr : gsTranslateAddress e.tls Address answer with
  | mk r t =>
    cases r with
    | error f => exact ⟨rfl,rfl,h,fun _ _ => rfl⟩
    | ok a =>
      obtain ⟨b,hb,rfl,rfl⟩ := gsBase_of_translate hr
      simp only [Except.map, h.cpu]
      refine ⟨rfl,rfl,⟨rfl,h.mem.store _ _⟩,?_⟩
      intro x hx
      exact write32_outside _ _ _ _ fun hin => hD b hb x hin hx

/-- The handler looks at the code and at the dword that the instruction addresses. -/
theorem handle_alike (hcode : Avoids (Within e.cpu.eip 8) D) {p : Pattern} (hp : p ≠ .int80)
    (hD : ∀ b, gsBase e.tls = some b → Avoids (Within (b + p.address e.toState) 4) D)
    (handleSyscall : Addr) (answer : Word) :
    HandledAlike D e'.mem (p.handle handleSyscall e answer) (p.handle handleSyscall e' answer) := by
  have haddress := h.address hcode p
  have hcpu := h.cpu
  have himm : pcDword e'.toState 3 = pcDword e.toState 3 := h.pcDword hcode (by decide)
  have hlast : pc e'.toState 7 = pc e.toState 7 := h.pc hcode (by decide)
  cases p with
  | int80 => exact absurd rfl hp
  | movGs =>
    simp only [Pattern.handle, hcpu, ht]
    refine ⟨rfl,rfl,⟨?_,h.mem⟩,fun _ _ => rfl⟩
    simp only [State.advance, hcpu]
  | storeMoffs | storeEcxAtEdx | storeEdxAtEax =>
    simp only [Pattern.handle, haddress, hcpu]
    exact storeGsDword_alike h ht hD ..
  | storeImm =>
    simp only [Pattern.handle, haddress, himm]
    exact storeGsDword_alike h ht hD ..
  | cmpImm =>
    simp only [Pattern.handle, haddress, hcpu, hlast]
    exact withGsDword_alike h ht hD ..
  | _ =>
    simp only [Pattern.handle, haddress, hcpu]
    exact withGsDword_alike h ht hD ..

/-- The same for what the handler prints. -/
theorem message_alike (hcode : Avoids (Within e.cpu.eip 8) D) (p : Pattern)
    (hD : ∀ b, gsBase e.tls = some b → Avoids (Within (b + p.address e.toState) 4) D) :
    p.message e'.toState (gsBase e'.tls) = p.message e.toState (gsBase e.tls) := by
  have haddress := h.address hcode p
  have himm : pcDword e'.toState 3 = pcDword e.toState 3 := h.pcDword hcode (by decide)
  have hread : ((gsBase e.tls).elim [] fun b =>
      gsRead (p.address e.toState) (read32 e'.mem (b + p.address e.toState))) =
      (gsBase e.tls).elim [] fun b =>
        gsRead (p.address e.toState) (read32 e.mem (b + p.address e.toState)) := by
    cases hb : gsBase e.tls with
    | none => simp only [Option.elim_none]
    | some b =>
      have hdword : read32 e'.mem (b + p.address e.toState) =
          read32 e.mem (b + p.address e.toState) := h.mem.read32 (hD b hb)
      simp only [Option.elim_some, hdword]
  cases p <;> simp only [Pattern.message, haddress, h.cpu, himm, ht, hread]

end handler

/-- The dword that an instruction at EIP addresses through GS is none of `D`. -/
def OperandApart (D : Addr → Prop) (t : Tls) (s : State) : Prop :=
  ∀ p : Pattern, p.Matches s → ∀ b, gsBase t = some b → Avoids (Within (b + p.address s) 4) D

/-- Only a system call is at `int 80h`. -/
theorem Pattern.Matches.ne_int80 {s : State} {p : Pattern} (hp : p.Matches s)
    (hat : ¬ AtInt80 s) : p ≠ .int80 := by
  rintro rfl
  exact hat ⟨hp.1,hp.2.1⟩

/-- The handler made nothing of the exception. -/
def Unhandled (r : Disposition × Emulator) : Prop := r.1 = .continueSearch ∨ r.1 = .exit

theorem unhandled_of_unmatched {e : Emulator} (h : ∀ p : Pattern, ¬ p.Matches e.toState)
    (handleSyscall : Addr) (answer : Word) : Unhandled (exceptionHandler handleSyscall e answer) := by
  rcases exceptionHandler_unmatched handleSyscall answer h with hr | hr
  · exact .inl (congrArg Prod.fst hr)
  · exact .inr (congrArg Prod.fst hr)

section exceptions
variable {D : Addr → Prop} {s s' : State} {t : Tls} (h : Alike D s s')
  (hcode : Avoids (Within s.cpu.eip 8) D) (hD : OperandApart D t s)
include h hcode hD

/-- An exception other than a system call. -/
theorem exceptionHandler_alike (hat : ¬ AtInt80 s) (handleSyscall : Addr) (answer : Word) :
    HandledAlike D s'.mem (exceptionHandler handleSyscall ⟨s,t⟩ answer)
      (exceptionHandler handleSyscall ⟨s',t⟩ answer) ∨
    Unhandled (exceptionHandler handleSyscall ⟨s,t⟩ answer) ∧
      Unhandled (exceptionHandler handleSyscall ⟨s',t⟩ answer) := by
  by_cases hmatch : ∃ p : Pattern, p.Matches s
  · obtain ⟨p,hp⟩ := hmatch
    have hp' : p.Matches s' := (h.matches_iff hcode p).mpr hp
    rw [exceptionHandler_at _ ⟨s,t⟩ _ hp, exceptionHandler_at _ ⟨s',t⟩ _ hp']
    have hcontexts : Alike D (Emulator.mk s t).toState (Emulator.mk s' t).toState := h
    exact .inl (handle_alike hcontexts rfl hcode (hp.ne_int80 hat) (hD p hp) handleSyscall answer)
  · have hnone : ∀ p : Pattern, ¬ p.Matches s := fun p hp => hmatch ⟨p,hp⟩
    have hnone' : ∀ p : Pattern, ¬ p.Matches s' :=
      fun p hp => hnone p ((h.matches_iff hcode p).mp hp)
    exact .inr ⟨unhandled_of_unmatched (e := ⟨s,t⟩) hnone ..,
      unhandled_of_unmatched (e := ⟨s',t⟩) hnone' ..⟩

theorem exceptionPrinted_alike :
    exceptionPrinted s' (gsBase t) = exceptionPrinted s (gsBase t) := by
  by_cases hmatch : ∃ p : Pattern, p.Matches s
  · obtain ⟨p,hp⟩ := hmatch
    have hcontexts : Alike D (Emulator.mk s t).toState (Emulator.mk s' t).toState := h
    rw [exceptionPrinted_at hp, exceptionPrinted_at ((h.matches_iff hcode p).mpr hp)]
    exact message_alike hcontexts rfl hcode p (hD p hp)
  · have hnone : ∀ p : Pattern, ¬ p.Matches s := fun p hp => hmatch ⟨p,hp⟩
    rw [exceptionPrinted_unmatched hnone, exceptionPrinted_unmatched]
    exact fun p hp => hnone p ((h.matches_iff hcode p).mp hp)

end exceptions
end Line2.Lnexec
