import Line2.Lnexec.SystemRuns

/-! The TLS of the thread over a run: what it held before the guest started stays. -/
namespace Line2.Lnexec
open Library.Memory Library.Runs Library.Simulation Ia32

/-- The slots taken before the guest started are as they were, and GS has none of them. -/
structure HostKept (t₀ t : Tls) : Prop where
  allocated : ∀ i, t₀.allocated i = true → t.allocated i = true
  slots : ∀ i, t₀.allocated i = true → t.slot i = t₀.slot i
  shadow : t.GsTls ≠ 0#32 → t₀.allocated t.GsTls = false

theorem HostKept.start {t : Tls} (h : AtStart t) : HostKept t t :=
  ⟨fun _ hi => hi,fun _ _ => rfl,fun hz => absurd h.shadow hz⟩

/-- A free index is none of the host's, and neither is an entry of the guest. -/
theorem HostKept.free {t₀ t : Tls} (h : HostKept t₀ t) {e : Word} (he : FreeIndex t e) {i : Word}
    (hi : t₀.allocated i = true) : i ≠ e :=
  he.ne (h.allocated i hi)

theorem HostKept.guestEntry {t₀ t : Tls} (h : HostKept t₀ t) (hstart : AtStart t₀) {e : Word}
    (he : GuestEntry t e) {i : Word} (hi : t₀.allocated i = true) : i ≠ e := by
  rintro rfl
  obtain ⟨k,hk⟩ := he.descriptor
  rw [h.slots i hi] at hk
  exact hstart.host i k hk

/-- TlsAlloc takes a slot that is free. -/
theorem HostKept.take {t₀ t : Tls} (h : HostKept t₀ t) {e : Word} (he : FreeIndex t e) :
    HostKept t₀ (t.take e) where
  allocated := fun i hi => (Tls.take_allocated (h.free he hi)).trans (h.allocated i hi)
  slots := fun i hi => (Tls.take_slot (h.free he hi)).trans (h.slots i hi)
  shadow := h.shadow

theorem HostKept.setValue {t₀ t : Tls} (h : HostKept t₀ t) {e : Word}
    (he : ∀ i, t₀.allocated i = true → i ≠ e) (p : PVoid) : HostKept t₀ (tlsSetValue t e p) where
  allocated := by simpa using h.allocated
  slots := fun i hi => (tlsSetValue_ne (he i hi) p).trans (h.slots i hi)
  shadow := by simpa using h.shadow

theorem HostKept.withHeap {t₀ t : Tls} (h : HostKept t₀ t) (heap : List LinuxUserDesc) :
    HostKept t₀ { t with heap := heap } :=
  ⟨h.allocated,h.slots,h.shadow⟩

theorem HostKept.area {t₀ t : Tls} (h : HostKept t₀ t) (hstart : AtStart t₀)
    (answers : HostAnswers) {udesc : Addr} {m : Mem} (hp : ProperArea t m udesc answers.tlsIndex) :
    HostKept t₀ (tlsArea answers t udesc m).1.2 := by
  simp only [tlsArea, sysSetThreadArea_eq]
  by_cases hx : Exhausted m udesc answers.tlsIndex
  · simp only [if_pos hx]
    exact h
  · simp only [if_neg hx, if_true, tlsFor, entryOf]
    unfold ProperArea at hp
    by_cases hn : read32 m udesc = 0xffffffff#32
    · rw [if_pos hn] at hp
      have hfree := (hp.resolve_left fun ha => hx ⟨hn,ha⟩).1
      simp only [if_pos hn]
      exact ((h.take hfree).withHeap _).setValue (fun i hi => h.free hfree hi) _
    · rw [if_neg hn] at hp
      simp only [if_neg hn]
      exact (h.withHeap _).setValue (fun i hi => h.guestEntry hstart hp hi) _

theorem HostKept.load {t₀ t : Tls} (h : HostKept t₀ t) (ax : BitVec 16) {answer : Word}
    (ha : t.GsTls = 0#32 → Allocates t answer) : HostKept t₀ (gsLoad t ax answer) := by
  unfold gsLoad
  by_cases hz : t.GsTls = 0#32
  · obtain ⟨hfree,_⟩ := ha hz
    have hnew : t₀.allocated answer = false := by
      by_contra hne
      exact h.free hfree (by simpa using hne) rfl
    rw [currentGs, if_pos hz, tlsAlloc_free hfree.ne_out]
    have htaken := h.take hfree
    have hshadow : HostKept t₀ { t.take answer with GsTls := answer } :=
      ⟨htaken.allocated,htaken.slots,fun _ => hnew⟩
    exact hshadow.setValue (fun i hi => h.free hfree hi) _
  · rw [currentGs_of_ne_zero hz]
    refine h.setValue ?_ _
    rintro i hi rfl
    rw [h.shadow hz] at hi
    cases hi

section runs
variable {host : HostCode} {reserve : Nat} {c : Machine} {a : MachineAction}

/-- What happens to the TLS of a disciplined guest. -/
theorem disciplined_thread (hd : Disciplined host reserve c a) :
    (machineStep host c a).world.thread = c.world.thread ∨
    (∃ h, ProperArea c.world.thread c.guest.mem c.guest.cpu.ebx h.tlsIndex ∧
      (machineStep host c a).world.thread =
        (tlsArea h c.world.thread c.guest.cpu.ebx c.guest.mem).1.2) ∨
    (∃ ax answer, (c.world.thread.GsTls = 0#32 → Allocates c.world.thread answer) ∧
      (machineStep host c a).world.thread = gsLoad c.world.thread ax answer) := by
  have hout := disciplined_outcome hd
  generalize machineStep host c a = c' at hout
  cases hout with
  | native w s code => exact .inl rfl
  | @syscall w s s' h k hat hs hp hreturn =>
    rw [SysFunction.serve_thread]
    by_cases hf : trapFunction s = .sysSetThreadArea
    · exact .inr (.inl ⟨h,hp hf,if_pos hf⟩)
    · exact .inl (if_neg hf)
  | loadGs hat hmov hi ha => exact .inr (.inr ⟨_,_,ha,rfl⟩)
  | throughGs hat => exact .inl rfl

/-- In no state of a run has a slot changed that was taken before the guest started. -/
theorem host_slots_untouched (kernel : Kernel) {t : Tls} (ht : AtStart t) (s : State)
    (actions : List MachineAction)
    (hd : EachStep (machineStep host) (Disciplined host reserve) ⟨true,⟨kernel,t⟩,s⟩ actions) :
    Always (machineStep host)
      (fun c => ∀ i, t.allocated i = true → c.world.thread.slot i = t.slot i)
      ⟨true,⟨kernel,t⟩,s⟩ actions := by
  have hkept : Always (machineStep host) (fun c => HostKept t c.world.thread)
      ⟨true,⟨kernel,t⟩,s⟩ actions := by
    refine always_of_step ?_ (HostKept.start ht) hd
    intro c a h hstep
    rcases disciplined_thread hstep with hsame | ⟨answers,hp,harea⟩ | ⟨ax,answer,ha,hload⟩
    · rwa [hsame]
    · rw [harea]
      exact h.area ht answers hp
    · rw [hload]
      exact h.load ax ha
  exact hkept.mono fun c h => h.slots

end runs

section sample

theorem sampleRun_host_slots : Always (machineStep sampleHost)
    (fun c => ∀ i, setupTls.allocated i = true → c.world.thread.slot i = setupTls.slot i)
    ⟨true,⟨sampleKernel,setupTls⟩,sampleTrap⟩ sampleRun :=
  host_slots_untouched sampleKernel setupTls_atStart sampleTrap sampleRun
    (sampleRun_disciplined sampleKernel)

end sample
end Line2.Lnexec
