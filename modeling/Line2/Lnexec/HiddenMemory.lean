import Line2.Library.Simulation
import Line2.Lnexec.Discipline

/-! Two runs over memories that differ in hidden bytes: where neither the guest nor its calls
come near these, the runs are the same and the bytes stay. -/
namespace Line2.Lnexec
open Library.Memory Library.Locality Library.Runs Library.Simulation Ia32

section trap
variable (host : HostCode) {D : Addr → Prop} {reserve : Nat} {h : HostAnswers} {k : Scratch}
  {w : Services Tls} {s : State} {m' : Mem}

theorem Alike.enter {s' : State} (ha : Alike D s s') (k : Scratch) :
    Alike D (k.enter s) (k.enter s') := by
  refine ⟨ha.cpu,?_⟩
  intro x hx
  simp only [Scratch.enter, ha.cpu]
  split
  · rfl
  · exact ha.mem x hx

/-- A hidden byte is none of the exception's. -/
theorem enter_hidden (hk : k.pushed ≤ reserve) (hbelow : Avoids (Below s reserve) D) {x : Addr}
    (hx : D x) : (k.enter s).mem x = s.mem x :=
  k.enter_outside fun hin => hbelow x (record_below hk hin) hx

/-- A trap that is ready, to the last byte. -/
theorem machineStep_exact (hready : TrapReady host (linked h k) w (k.enter s)) :
    let r := (trapFunction s).serve tlsArea h w (trapArgs s) (dispatchEntry host (k.enter s)).mem
    machineStep host ⟨true,w,s⟩ (.fault h k) = ⟨true,r.1.2,
      { cpu := { s.cpu with
          eax := r.1.1, ecx := k.ecx, edx := k.edx, eip := s.cpu.eip + 2#32
          eflags := trampolineFlags s.cpu.esp k.eflags }
        mem := fun x =>
          if Within ((dispatchEntry host (k.enter s)).cpu.esp - BitVec.ofNat 32 k.depth) k.depth x
          then k.frames x else r.2 x }⟩ := by
  obtain ⟨eflags,htrap⟩ := syscallTrap_returns host (linked h k) w (k.enter s) hready
  have hflags := syscallTrap_eflags host (linked h k) w (k.enter s) hready htrap
  dsimp only at hflags
  subst hflags
  have hat : AtInt80 (k.enter s) := hready.int80
  simp only [machineStep, if_pos hat, htrap]
  rfl

/-- The function of the table over either memory, as the trampoline hands it on. -/
theorem serve_alike (hat : AtInt80 s) (hs : Serviceable reserve h k w s)
    (hbelow : Avoids (Below s reserve) D)
    (htouched : Avoids ((trapFunction s).touched h w.kernel (trapArgs s) s.mem) D)
    (hm : AgreeOutside D s.mem m') (hat' : AtInt80 ⟨s.cpu,m'⟩) :
    let entry := dispatchEntry host (k.enter s)
    let entry' := dispatchEntry host (k.enter ⟨s.cpu,m'⟩)
    let r := (trapFunction s).serve tlsArea h w (trapArgs s) entry.mem
    let r' := (trapFunction s).serve tlsArea h w (trapArgs s) entry'.mem
    r'.1 = r.1 ∧ AgreeOutside D r.2 r'.2 ∧ (∀ x, Below s reserve x → r'.2 x = entry'.mem x) ∧
    ∀ x, D x → r'.2 x = m' x := by
  have hspared : Spared reserve k ⟨s.cpu,m'⟩ := ⟨hs.spared.pushed,hs.spared.code⟩
  have hentry := entry_agrees host hat hs.spared hs.slots
  have hentry' := entry_agrees host hat' hspared hs.slots
  have hstates : Alike D s ⟨s.cpu,m'⟩ := ⟨rfl,hm⟩
  have halike := (hstates.enter k).dispatchEntry host (hs.spared.atInt80.mpr hat)
    (hspared.atInt80.mpr hat')
  have hconfined := (trapFunction s).confined tlsArea_confined h w (trapArgs s) s.mem
  have havoid : Avoids ((trapFunction s).touched h w.kernel (trapArgs s) s.mem)
      (fun x => D x ∨ Below s reserve x) :=
    fun x hx hin => hin.elim (htouched x hx) (hs.apart x hx)
  obtain ⟨hr,hrest,hkept⟩ := hconfined (dispatchEntry host (k.enter s)).mem
    (fun x => D x ∨ Below s reserve x) (fun x hx => hentry x fun hb => hx (.inr hb)) havoid
  obtain ⟨hr',hrest',hkept'⟩ := hconfined (dispatchEntry host (k.enter ⟨s.cpu,m'⟩)).mem
    (fun x => D x ∨ Below s reserve x)
    (fun x hx => (hentry' x fun hb => hx (.inr hb)).trans (hm x fun hd => hx (.inl hd))) havoid
  refine ⟨hr'.trans hr.symm,?_,fun x hx => hkept' x (.inr hx),?_⟩
  · intro x hx
    by_cases hb : Below s reserve x
    · rw [hkept x (.inr hb), hkept' x (.inr hb)]
      exact halike.mem x hx
    · have hout : ¬ (D x ∨ Below s reserve x) := fun hin => hin.elim hx hb
      rw [hrest x hout, hrest' x hout]
  · intro x hx
    rw [hkept' x (.inl hx)]
    exact hentry' x fun hb => hbelow x hb hx

end trap

/-- Two machines that differ in hidden bytes only, and in the second these are as in `m'`. -/
structure SameBut (D : Addr → Prop) (m' : Mem) (c c' : Machine) : Prop where
  running : c'.running = c.running
  world : c'.world = c.world
  guest : Alike D c.guest c'.guest
  hidden : ∀ x, D x → c'.guest.mem x = m' x

/-- The step keeps away from the hidden bytes: the guest's code neither uses nor changes
them, and none is in the code at a fault, in the stack below it, in what a system call
touches or in a dword that GS addresses. GS holds no pointer of the host's either. -/
def KeepsAway (D : Addr → Prop) (reserve : Nat) : Machine → MachineAction → Prop
  | ⟨true,_,s⟩, .native code => ∀ s', Alike D s s' →
    Alike D (code s) (code s') ∧ ∀ x, D x → (code s').mem x = s'.mem x
  | ⟨true,w,s⟩, .fault h k => Avoids (Within s.cpu.eip 8) D ∧ Avoids (Below s reserve) D ∧
    if AtInt80 s then
      Serviceable reserve h k w s ∧
      Avoids ((trapFunction s).touched h w.kernel (trapArgs s) s.mem) D
    else Spared reserve k s ∧ OperandApart D w.thread s ∧ ¬ GsStray w.thread
  | ⟨false,_,_⟩, _ => True

section steps
variable {host : HostCode} {D : Addr → Prop} {reserve : Nat} {h : HostAnswers} {k : Scratch}
  {w : Services Tls} {s : State} {m' : Mem}

private theorem trap_sameBut (hat : AtInt80 s) (hs : Serviceable reserve h k w s)
    (hbelow : Avoids (Below s reserve) D)
    (htouched : Avoids ((trapFunction s).touched h w.kernel (trapArgs s) s.mem) D)
    (hm : AgreeOutside D s.mem m') (hat' : AtInt80 ⟨s.cpu,m'⟩) :
    SameBut D m' (machineStep host ⟨true,w,s⟩ (.fault h k))
      (machineStep host ⟨true,w,⟨s.cpu,m'⟩⟩ (.fault h k)) := by
  obtain ⟨hresult,hrest,hkept,hhidden⟩ := serve_alike host hat hs hbelow htouched hm hat'
  have hspared : Spared reserve k ⟨s.cpu,m'⟩ := ⟨hs.spared.pushed,hs.spared.code⟩
  have hready' : TrapReady host (linked h k) w (k.enter ⟨s.cpu,m'⟩) := by
    refine ⟨hspared.atInt80.mpr hat',hs.inTable.1,hs.inTable.2,?_⟩
    intro x hx hstored
    exact hstored (hkept x (slots_below hs.slots hx))
  obtain ⟨hcpu,_,_⟩ := dispatchEntry_spec host (k.enter s) (hs.spared.atInt80.mpr hat)
  obtain ⟨hcpu',_,_⟩ := dispatchEntry_spec host (k.enter ⟨s.cpu,m'⟩) (hspared.atInt80.mpr hat')
  rw [machineStep_exact host (hs.trapReady host hat), machineStep_exact host hready']
  have hframes (x : Addr) (hx : D x) :
      ¬ Within (s.cpu.esp - 36#32 - BitVec.ofNat 32 k.depth) k.depth x :=
    fun hin => hbelow x (frames_below hs.frames hin) hx
  constructor
  · rfl
  · exact congrArg Prod.snd hresult
  · refine ⟨?_,?_⟩
    · exact congrArg (fun v => { s.cpu with
        eax := v, ecx := k.ecx, edx := k.edx, eip := s.cpu.eip + 2#32
        eflags := trampolineFlags s.cpu.esp k.eflags }) (congrArg Prod.fst hresult)
    · intro x hx
      simp only [hcpu, hcpu']
      by_cases hin : Within (s.cpu.esp - 36#32 - BitVec.ofNat 32 k.depth) k.depth x
      · exact (if_pos hin).trans (if_pos hin).symm
      · exact (if_neg hin).trans ((hrest x hx).trans (if_neg hin).symm)
  · intro x hx
    simp only [hcpu']
    exact (if_neg (hframes x hx)).trans (hhidden x hx)

/-- What a step makes of two handlers that ended alike. -/
private theorem ended_sameBut {r r' : Disposition × Emulator} {text : List Byte}
    (hr : HandledAlike D m' r r') (hstray : ¬ ∃ v, r.1 = .fault (.hostPointer v))
    (hm : AgreeOutside D s.mem m') :
    SameBut D m' (handled k w s text r) (handled k w ⟨s.cpu,m'⟩ text r') := by
  obtain ⟨d,e⟩ := r
  obtain ⟨d',e'⟩ := r'
  obtain ⟨hd,ht,hstate,hhidden⟩ := hr
  dsimp only at hd ht hstate hhidden hstray
  subst hd
  cases d' with
  | continueExecution => exact ⟨rfl,by simp only [handled, ht],hstate,hhidden⟩
  | fault f =>
    cases f with
    | hostPointer v => exact absurd ⟨v,rfl⟩ hstray
    | _ => exact ⟨rfl,rfl,⟨rfl,hm⟩,fun _ _ => rfl⟩
  | _ => exact ⟨rfl,rfl,⟨rfl,hm⟩,fun _ _ => rfl⟩

/-- What is asked of the dword at a fault is asked of it as the handler finds it. -/
private theorem OperandApart.enter (hs : Spared reserve k s) (hgs : OperandApart D w.thread s) :
    OperandApart D w.thread (k.enter s) := by
  have hentered := k.enter_alike (s := s) hs.pushed
  intro p hp b hb
  rw [hentered.address hs.code p]
  exact hgs p ((hentered.matches_iff hs.code p).mp hp) b hb

/-- The handler goes astray with the slot of GS only. -/
private theorem not_astray (hat : ¬ AtInt80 s) (hstray : ¬ GsStray w.thread) (answer : Word) :
    ¬ ∃ v, (exceptionHandler host.handleSyscall ⟨s,w.thread⟩ answer).1 =
      .fault (.hostPointer v) := by
  by_cases hmatch : ∃ p : Pattern, p.Matches s
  · obtain ⟨p,hp⟩ := hmatch
    rw [exceptionHandler_at _ ⟨s,w.thread⟩ _ hp]
    by_cases hmov : p = .movGs
    · rw [hmov]
      rintro ⟨v,hv⟩
      cases hv
    · rw [Pattern.handle_disposition (hp.ne_int80 hat) hmov, accessed_hostPointer_iff]
      exact hstray
  · rintro ⟨v,hv⟩
    rcases unhandled_of_unmatched (e := ⟨s,w.thread⟩) (fun p hp => hmatch ⟨p,hp⟩)
      host.handleSyscall answer with hr | hr
    all_goals cases hr.symm.trans hv

private theorem fault_sameBut (hat : ¬ AtInt80 s) (hcode : Avoids (Within s.cpu.eip 8) D)
    (hbelow : Avoids (Below s reserve) D) (hs : Spared reserve k s)
    (hgs : OperandApart D w.thread s) (hstray : ¬ GsStray w.thread)
    (hm : AgreeOutside D s.mem m') :
    SameBut D m' (machineStep host ⟨true,w,s⟩ (.fault h k))
      (machineStep host ⟨true,w,⟨s.cpu,m'⟩⟩ (.fault h k)) := by
  have hstates : Alike D s ⟨s.cpu,m'⟩ := ⟨rfl,hm⟩
  have halike := hstates.enter k
  have hoperand : OperandApart D w.thread (k.enter s) := hgs.enter hs
  have hnot : ¬ AtInt80 (k.enter s) := mt hs.atInt80.mp hat
  have hnot' : ¬ AtInt80 (k.enter ⟨s.cpu,m'⟩) := mt (halike.atInt80 hcode).mp hnot
  have hprinted := exceptionPrinted_alike halike hcode hoperand
  simp only [machineStep, if_neg hnot, if_neg hnot', hprinted]
  rcases exceptionHandler_alike halike hcode hoperand hnot host.handleSyscall h.tlsIndex with
    hr | ⟨hr,hr'⟩
  · refine ended_sameBut ⟨hr.disposition,hr.tls,hr.state,?_⟩ (not_astray hnot hstray _) hm
    intro x hx
    exact (hr.hidden x hx).trans (enter_hidden (s := ⟨s.cpu,m'⟩) hs.pushed hbelow hx)
  · rw [handled_unhandled hr, handled_unhandled hr']
    exact ⟨rfl,rfl,⟨rfl,hm⟩,fun _ _ => rfl⟩

theorem KeepsAway.step {c c' : Machine} {a : MachineAction} (hc : SameBut D m' c c')
    (ha : KeepsAway D reserve c a) :
    SameBut D m' (machineStep host c a) (machineStep host c' a) := by
  obtain ⟨running,w,cpu,mem⟩ := c
  obtain ⟨running',w',cpu',mem'⟩ := c'
  obtain ⟨hrunning,hw,⟨hcpu,hm⟩,hhidden⟩ := hc
  dsimp only at hrunning hw hcpu hm hhidden
  subst hrunning hw hcpu
  have hfrom {d d' : Machine} (h : SameBut D mem' d d') : SameBut D m' d d' :=
    ⟨h.running,h.world,h.guest,fun x hx => (h.hidden x hx).trans (hhidden x hx)⟩
  cases running' with
  | false => exact ⟨rfl,rfl,⟨rfl,hm⟩,hhidden⟩
  | true =>
    cases a with
    | native code =>
      obtain ⟨hcode,hkept⟩ := ha ⟨cpu',mem'⟩ ⟨rfl,hm⟩
      exact hfrom ⟨rfl,rfl,hcode,hkept⟩
    | fault h k =>
      obtain ⟨hcode,hbelow,ha⟩ := ha
      have halike : Alike D ⟨cpu',mem⟩ ⟨cpu',mem'⟩ := ⟨rfl,hm⟩
      have hiff := halike.atInt80 hcode
      split at ha
      · rename_i hat
        exact hfrom (trap_sameBut hat ha.1 hbelow ha.2 hm (hiff.mpr hat))
      · rename_i hat
        exact hfrom (fault_sameBut hat hcode hbelow ha.1 ha.2.1 ha.2.2 hm)

/-- Whatever the hidden bytes hold: the machine is in the same state at the end of the run,
and they are as they were. -/
theorem hidden_memory_irrelevant (host : HostCode) (D : Addr → Prop) (reserve : Nat) (c : Machine)
    (m' : Mem) (hm : AgreeOutside D c.guest.mem m') (actions : List MachineAction)
    (hd : EachStep (machineStep host) (KeepsAway D reserve) c actions) :
    SameBut D m' (actions.foldl (machineStep host) c)
      (actions.foldl (machineStep host) { c with guest := { c.guest with mem := m' } }) :=
  related_foldl (fun _ _ _ hc ha => ha.step hc) ⟨rfl,rfl,⟨rfl,hm⟩,fun _ _ => rfl⟩ hd

end steps

section sample

/-- A page of the host's. -/
def hostPage : Addr → Prop := Within 0x600000#32 0x1000

private theorem hostPage_avoided {a : Addr} {n : Nat} (h : a.toNat + n ≤ 0x600000) :
    Avoids (Within a n) hostPage := by
  intro x hx hpage
  simp only [hostPage, Within] at *
  bv_omega

private theorem sampleRead_keepsAway (w : Services Tls) : KeepsAway hostPage 1000
    ⟨true,w,sampleCall 3#32 0#32 0x3000#32 7#32⟩ (.fault sampleAnswers sampleScratch) := by
  simp only [KeepsAway, if_pos (sampleCall_at ..)]
  refine ⟨hostPage_avoided (by decide),hostPage_avoided (by decide),sampleRead_serviceable w,?_⟩
  rintro x ⟨_,d,_,hx⟩
  have hle := answered_le_buffer (w.kernel.files (translateFile (w.kernel.process
    (sampleCall 3#32 0#32 0x3000#32 7#32).mem) 0#32)) 7#32 d
  have hbuffer : Avoids (Within 0x3000#32 7) hostPage := hostPage_avoided (by decide)
  exact hbuffer x (Nat.lt_of_lt_of_le hx hle)

theorem sampleRead_hides :
    (let c : Machine := ⟨true,⟨sampleKernel,setupTls⟩,sampleCall 3#32 0#32 0x3000#32 7#32⟩
    let m' : Mem := store c.guest.mem 0x600000#32 [0x73#8]
    let actions : List MachineAction := [.native id,.fault sampleAnswers sampleScratch]
    SameBut hostPage m' (actions.foldl (machineStep sampleHost) c)
      (actions.foldl (machineStep sampleHost) { c with guest := { c.guest with mem := m' } })) := by
  refine hidden_memory_irrelevant sampleHost hostPage 1000 _ _ ?_ _
    ⟨?_,sampleRead_keepsAway _,trivial⟩
  · intro x hx
    apply store_outside
    intro hin
    exact hx (Nat.lt_of_lt_of_le hin (by decide))
  · exact fun s' hs => ⟨hs,fun _ _ => rfl⟩

end sample
end Line2.Lnexec
