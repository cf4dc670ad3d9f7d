import Line2.Lnexec.SyscallTable

/-! Every function of the table keeps to the guest memory that its arguments name. -/
namespace Line2.Lnexec
open Library.Memory Library.Locality Library.CString

/-- Which handle a descriptor stands for does not depend on guest memory. -/
theorem Kernel.handle (k : Kernel) (fd : Word) :
    ∃ hFile, ∀ m, translateFile (k.process m) fd = hFile :=
  ⟨translateFile (k.process fun _ => 0#8) fd,fun _ => rfl⟩

section
variable {τ : Type} (area : AreaService τ) (h : HostAnswers) (w : Services τ) (args : SysArgs)

private theorem sysRead_confined :
    Confined (SysFunction.sysRead.touched h w.kernel args)
      (SysFunction.sysRead.serve area h w args) := by
  obtain ⟨hFile,hfd⟩ := w.kernel.handle args.arg1
  intro m m' D hm hD
  have hone : (1#32).toNat = 1 := rfl
  simp only [SysFunction.touched, SysFunction.serve, reading, sysRead, readvFrom, hfd, hone]
    at hD ⊢
  by_cases ho : hFile = 0#32
  · simp only [if_pos ho]
    exact ⟨rfl,hm,fun _ _ => rfl⟩
  · simp only [if_neg ho, readvLoop, Kernel.process]
    cases ha : h.reads 0 (w.kernel.files hFile) with
    | fails => exact ⟨rfl,hm,fun _ _ => rfl⟩
    | delivers d =>
      refine Confined.store args.arg2 _ _ m m' D hm (hD.mono ?_)
      intro x hx
      rw [List.length_take, Nat.min_eq_left (answered_le ..)] at hx
      exact ⟨ho,d,ha,hx⟩

private theorem sysReadv_confined :
    Confined (SysFunction.sysReadv.touched h w.kernel args)
      (SysFunction.sysReadv.serve area h w args) := by
  obtain ⟨hFile,hfd⟩ := w.kernel.handle args.arg1
  intro m m' D hm hD
  simp only [SysFunction.touched, SysFunction.serve, reading, sysReadv, readvFrom, hfd] at hD ⊢
  by_cases ho : hFile = 0#32
  · simp only [if_pos ho]
    exact ⟨rfl,hm,fun _ _ => rfl⟩
  · simp only [if_neg ho]
    have hloop := readvLoop_confined w.kernel.params hFile h.reads args.arg2 args.arg3.toNat 0
      0#32 w.kernel.files
    exact hloop.map (g := fun r => (BitVec.ofInt 32 r.1,w.withFiles r.2)) m m' D hm
      (hD.mono fun _ hx => ⟨ho,hx⟩)

private theorem sysWritev_confined :
    Confined (SysFunction.sysWritev.touched h w.kernel args)
      (SysFunction.sysWritev.serve area h w args) := by
  obtain ⟨hFile,hfd⟩ := w.kernel.handle args.arg1
  refine Confined.of_reads ?_
  intro m m' D hm hD
  simp only [SysFunction.touched, sysWritev, hfd] at hD ⊢
  by_cases ho : hFile = 0#32
  · simp only [if_pos ho]
  · simp only [if_neg ho]
    have hloop := writevLoop_congr hm h.writes args.arg2 args.arg3.toNat 0 0#32
      (hD.mono fun _ hx => ⟨ho,hx⟩)
    simp only [Kernel.process, hloop]

private theorem sysTime_confined :
    Confined (SysFunction.sysTime.touched h w.kernel args)
      (SysFunction.sysTime.serve area h w args) := by
  intro m m' D hm hD
  simp only [SysFunction.touched, SysFunction.serve, sysTime] at hD ⊢
  by_cases ht : args.arg1 = 0#32
  · simp only [if_pos ht]
    exact ⟨trivial,hm,fun _ _ => trivial⟩
  · simp only [if_neg ht]
    obtain ⟨_,hrest,hkept⟩ := Confined.store args.arg1 (bytes32 _) () m m' D hm
      (hD.mono fun _ hx => ⟨ht,hx⟩)
    exact ⟨trivial,hrest,hkept⟩

private theorem sysUname_confined :
    Confined (SysFunction.sysUname.touched h w.kernel args)
      (SysFunction.sysUname.serve area h w args) := by
  have hcopies := Confined.storeAll (UtsField.copies args.arg1) (BitVec.ofInt 32 0,w)
  refine Confined.mono hcopies ?_
  rintro m x ⟨s,hs,hx⟩
  obtain ⟨f,_,rfl⟩ := List.mem_map.mp hs
  rw [UtsField.copy_length] at hx
  exact ⟨f,hx⟩

private theorem sysOpen_confined :
    Confined (SysFunction.sysOpen.touched h w.kernel args)
      (SysFunction.sysOpen.serve area h w args) := by
  refine Confined.of_reads (r := fun m =>
    (0#32,w.print (openCalled (stringAt m args.arg1) args.arg2 args.arg3))) ?_
  intro m m' D hm hD
  have hname : stringAt m' args.arg1 = stringAt m args.arg1 :=
    stringUpTo_congr (Nat.le_refl _) fun x hx => hm x (hD x hx)
  simp only [hname]

end

section area

/-- The four dwords of the struct. -/
private theorem within_desc {udesc x : Addr} {k : Nat} (hk : k ≤ 12)
    (hx : Within (udesc + BitVec.ofNat 32 k) 4 x) : Within udesc 16 x := by
  simp only [Within] at *
  bv_omega

variable {D : Addr → Prop} {m m' : Mem} {udesc : Addr} (hm : AgreeOutside D m m')
  (hD : Avoids (Within udesc 16) D)
include hm hD

theorem readUserDesc_congr : readUserDesc m' udesc = readUserDesc m udesc := by
  have hdword (k : Nat) (hk : k ≤ 12) :
      read32 m' (udesc + BitVec.ofNat 32 k) = read32 m (udesc + BitVec.ofNat 32 k) :=
    hm.read32 (hD.mono fun _ => within_desc hk)
  have h0 := hdword 0 (by decide)
  rw [BitVec.add_zero] at h0
  simp only [readUserDesc, h0, hdword 4 (by decide), hdword 8 (by decide), hdword 12 (by decide)]

theorem entryNumber_congr : read32 m' udesc = read32 m udesc :=
  congrArg LinuxUserDesc.entry_number (readUserDesc_congr hm hD)

theorem exhausted_congr (answer : Word) : Exhausted m' udesc answer ↔ Exhausted m udesc answer := by
  rw [Exhausted, Exhausted, entryNumber_congr hm hD]

end area

private theorem sysSetThreadArea_confined {τ : Type} {area : AreaService τ}
    (harea : ∀ h t udesc, Confined (fun _ => Within udesc 16) (area h t udesc))
    (h : HostAnswers) (w : Services τ) (args : SysArgs) :
    Confined (SysFunction.sysSetThreadArea.touched h w.kernel args)
      (SysFunction.sysSetThreadArea.serve area h w args) := by
  intro m m' D hm hD
  have hstruct : Avoids (Within args.arg1 16) D := hD
  obtain ⟨hr,hrest,hkept⟩ := harea h w.thread args.arg1 m m' D hm hstruct
  have hdesc := readUserDesc_congr hrest hstruct
  have hout := exhausted_congr hm hstruct h.tlsIndex
  simp only [SysFunction.serve, hr, hdesc, hout]
  exact ⟨trivial,hrest,hkept⟩

/-- set_thread_area keeps to the struct. -/
theorem tlsArea_confined (h : HostAnswers) (t : Tls) (udesc : Addr) :
    Confined (fun _ => Within udesc 16) (tlsArea h t udesc) := by
  intro m m' D hm hD
  have hnumber := entryNumber_congr hm hD
  have hentry : entryOf m' udesc h.tlsIndex = entryOf m udesc h.tlsIndex := by
    rw [entryOf, entryOf, hnumber]
  have htls : tlsFor t m' udesc h.tlsIndex = tlsFor t m udesc h.tlsIndex := by
    rw [tlsFor, tlsFor, hnumber]
  simp only [tlsArea, sysSetThreadArea_eq, exhausted_congr hm hD, hentry, htls, if_true]
  by_cases hx : Exhausted m udesc h.tlsIndex
  · simp only [if_pos hx]
    exact ⟨trivial,hm,fun _ _ => trivial⟩
  · simp only [if_neg hx]
    generalize entryOf m udesc h.tlsIndex = e
    have hwritten : AgreeOutside D (write32 m udesc e) (write32 m' udesc e) :=
      hm.store udesc (bytes32 e)
    simp only [readUserDesc_congr hwritten hD]
    refine ⟨trivial,hwritten,?_⟩
    intro x hx
    apply write32_outside
    intro hin
    exact hD x (within_desc (Nat.zero_le 12) (by simpa using hin)) hx

/-- Whatever else memory holds, a call comes to the same and leaves it. -/
theorem SysFunction.confined {τ : Type} {area : AreaService τ}
    (harea : ∀ h t udesc, Confined (fun _ => Within udesc 16) (area h t udesc)) (f : SysFunction)
    (h : HostAnswers) (w : Services τ) (args : SysArgs) :
    Confined (f.touched h w.kernel args) (f.serve area h w args) := by
  cases f with
  | sysRead => exact sysRead_confined area h w args
  | sysReadv => exact sysReadv_confined area h w args
  | sysWritev => exact sysWritev_confined area h w args
  | sysTime => exact sysTime_confined area h w args
  | sysUname => exact sysUname_confined area h w args
  | sysSetThreadArea => exact sysSetThreadArea_confined harea h w args
  | sysOpen => exact sysOpen_confined area h w args
  | sysBrk | sysClose | sysGetuid32 | sysGetgid32 | sysGeteuid32 | sysGetegid32 | stub =>
    exact Confined.const _

end Line2.Lnexec
