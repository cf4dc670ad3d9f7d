import Line2.Lnexec.ThreadArea

/-! Guest entries and host slots share one index space and set_thread_area checks
neither the number nor the pointers. When is the host's TLS out of the guest's reach? -/
namespace Line2.Lnexec
open Library.Memory Library.Runs

/-- A thread with what its history says: the slots set_thread_area handed out, and
whether the last mov gs took a descriptor to a slot that holds it. -/
structure Watched where
  thread : Thread
  handed : Word → Bool
  armed : Bool

/-- The slot belongs to the host: to its runtime, or to the shadow of GS. -/
def HostOwned (t : Tls) (handed : Word → Bool) (i : Word) : Prop :=
  i.toNat < TLS_SLOTS ∧ t.allocated i = true ∧ handed i = false

instance (t : Tls) (handed : Word → Bool) (i : Word) : Decidable (HostOwned t handed i) :=
  inferInstanceAs (Decidable (_ ∧ _ ∧ _))

def PVoid.isDescriptor : PVoid → Bool
  | .descriptor _ => true
  | _ => false

/-- A slot number that CurrentGs keeps and the TLS accepts. -/
def UsableShadow (i : Word) : Prop := i ≠ 0#32 ∧ i.toNat < TLS_SLOTS

instance (i : Word) : Decidable (UsableShadow i) := inferInstanceAs (Decidable (_ ∧ _))

def handedBy (w : Watched) : GuestAction → Word → Bool
  | .setThreadArea udesc answer _ =>
    if read32 w.thread.mem udesc = 0xffffffff#32 ∧ answer ≠ TLS_OUT_OF_INDEXES then
      Function.update w.handed answer true
    else w.handed
  | _ => w.handed

def armedBy (w : Watched) : GuestAction → Bool
  | .movGs ax answer =>
    let shadow := if w.thread.tls.GsTls = 0#32 then answer else w.thread.tls.GsTls
    (tlsGetValue w.thread.tls (selected ax)).isDescriptor && UsableShadow shadow
  | _ => w.armed

def watch (w : Watched) (a : GuestAction) : Watched :=
  ⟨(w.thread.act a).2,handedBy w a,armedBy w a⟩

/-- The guest's number is no host slot's, or the call fails; and no call changes a
host slot. An access dereferences a descriptor. -/
def Isolated (w : Watched) : GuestAction → Prop
  | .setThreadArea udesc answer malloc =>
    (∀ i, HostOwned w.thread.tls w.handed i →
      (w.thread.act (.setThreadArea udesc answer malloc)).2.tls.slot i = w.thread.tls.slot i) ∧
    (HostOwned w.thread.tls w.handed (read32 w.thread.mem udesc) →
      ∃ result < 0, (w.thread.act (.setThreadArea udesc answer malloc)).1 = .returned result)
  | .movGs _ _ => True
  | .gsRead Address answer => ∃ p, (gsTranslateAddress w.thread.tls Address answer).1 = .ok p
  | .gsWrite Address _ answer => ∃ p, (gsTranslateAddress w.thread.tls Address answer).1 = .ok p
  | .store _ _ => True

/-- set_thread_area names no host slot, and GS is used only once a mov gs has
loaded it with a descriptor. -/
def RespectsHost (w : Watched) : GuestAction → Prop
  | .setThreadArea udesc _ _ => ¬ HostOwned w.thread.tls w.handed (read32 w.thread.mem udesc)
  | .movGs _ _ => True
  | .gsRead _ _ => w.armed = true
  | .gsWrite _ _ _ => w.armed = true
  | .store _ _ => True

/-- TlsAlloc answers with a free index or with none. -/
def TlsAnswer (t : Tls) (answer : Word) : Prop := answer = TLS_OUT_OF_INDEXES ∨ FreeIndex t answer

def Answered (w : Watched) : GuestAction → Prop
  | .setThreadArea udesc answer _ =>
    read32 w.thread.mem udesc = 0xffffffff#32 → TlsAnswer w.thread.tls answer
  | .movGs _ answer => w.thread.tls.GsTls = 0#32 → TlsAnswer w.thread.tls answer
  | .gsRead _ answer => w.thread.tls.GsTls = 0#32 → TlsAnswer w.thread.tls answer
  | .gsWrite _ _ answer => w.thread.tls.GsTls = 0#32 → TlsAnswer w.thread.tls answer
  | .store _ _ => True

/-- GS holds a descriptor. -/
def Loaded (t : Tls) : Prop := UsableShadow t.GsTls ∧ ∃ k, t.slot t.GsTls = .descriptor k

/-- Every descriptor in a slot was made, what was handed out is allocated, and
the GS slot is the host's. -/
structure SlotsSound (t : Tls) (handed : Word → Bool) : Prop where
  made : ∀ i k, t.slot i = .descriptor k → k < t.heap.length
  handedOut : ∀ i, handed i = true → t.allocated i = true
  shadow : UsableShadow t.GsTls → HostOwned t handed t.GsTls

/-- The invariant of the watched runs: `armed` tells whether GS holds a descriptor. -/
structure Watching (w : Watched) : Prop where
  sound : SlotsSound w.thread.tls w.handed
  armed : w.armed = true ↔ Loaded w.thread.tls

theorem FreeIndex.not_host {t : Tls} {i : Word} (h : FreeIndex t i) {handed : Word → Bool} :
    ¬ HostOwned t handed i := by
  rintro ⟨_,ha,_⟩
  rw [h.free] at ha
  cases ha

/-- TlsAlloc clears no slot but the one set_thread_area installs under. -/
theorem tlsFor_keeps {t : Tls} {m : Mem} {udesc : Addr} {answer i : Word}
    (hi : i ≠ entryOf m udesc answer) : (tlsFor t m udesc answer).slot i = t.slot i := by
  unfold tlsFor entryOf at *
  split
  · rename_i hn
    rw [if_pos hn] at hi
    exact Tls.take_slot hi
  · rfl

theorem baseAddr_descriptor {t : Tls} {k : Nat} (hk : k < t.heap.length) :
    baseAddr t (.descriptor k) = .ok (t.heap[k].base_addr) := by
  simp [baseAddr, hk]

/-- A base is read through a slot that CurrentGs keeps. -/
theorem usable_of_gsBase {t : Tls} {b : Word} (h : gsBase t = some b) : UsableShadow t.GsTls := by
  unfold gsBase tlsGetValue at h
  split at h
  · cases h
  · rename_i hz
    split at h
    · rename_i hr
      exact ⟨hz,hr⟩
    · simp [Except.toOption] at h

theorem gsBase_usable {t : Tls} (h : UsableShadow t.GsTls) :
    gsBase t = (baseAddr t (t.slot t.GsTls)).toOption := by
  rw [gsBase, if_neg h.1, tlsGetValue, if_pos h.2]

/-- GS has a base exactly when it holds a descriptor. -/
theorem gsBase_iff {t : Tls} (hmade : ∀ i k, t.slot i = .descriptor k → k < t.heap.length) :
    (∃ b, gsBase t = some b) ↔ Loaded t := by
  constructor
  · rintro ⟨b,hb⟩
    have hu := usable_of_gsBase hb
    rw [gsBase_usable hu] at hb
    cases hs : t.slot t.GsTls with
    | null => simp [hs, baseAddr, Except.toOption] at hb
    | host v => simp [hs, baseAddr, Except.toOption] at hb
    | descriptor k => exact ⟨hu,k,hs⟩
  · rintro ⟨hu,k,hs⟩
    rw [gsBase_usable hu, hs, baseAddr_descriptor (hmade _ k hs)]
    exact ⟨_,rfl⟩

/-- An access dereferences a descriptor iff GS holds one. -/
theorem translate_iff {t : Tls} (hmade : ∀ i k, t.slot i = .descriptor k → k < t.heap.length)
    (Address answer : Word) :
    (∃ p, (gsTranslateAddress t Address answer).1 = .ok p) ↔ Loaded t := by
  rw [← gsBase_iff hmade]
  constructor
  · rintro ⟨p,hp⟩
    obtain ⟨b,hb,_,_⟩ := gsBase_of_translate (Prod.ext hp rfl)
    exact ⟨b,hb⟩
  · rintro ⟨b,hb⟩
    rw [gsTranslateAddress_of_base hb]
    exact ⟨_,rfl⟩

/-- A host slot survives set_thread_area unless the guest named it. -/
theorem setThreadArea_keeps {s : Thread} {handed : Word → Bool} {udesc : Addr} {answer : Word}
    {malloc : Bool} (ha : read32 s.mem udesc = 0xffffffff#32 → TlsAnswer s.tls answer)
    (hn : ¬ HostOwned s.tls handed (read32 s.mem udesc)) {i : Word}
    (hi : HostOwned s.tls handed i) :
    (s.act (.setThreadArea udesc answer malloc)).2.tls.slot i = s.tls.slot i := by
  have hrun := sysSetThreadArea_eq s.tls s.mem udesc answer malloc
  by_cases hx : Exhausted s.mem udesc answer
  · rw [if_pos hx] at hrun
    simp only [Thread.act, hrun]
  · rw [if_neg hx] at hrun
    have hne : i ≠ entryOf s.mem udesc answer := by
      rintro rfl
      unfold entryOf at hi
      split at hi
      · rename_i hm
        exact ((ha hm).resolve_left fun h => hx ⟨hm,h⟩).not_host hi
      · exact hn hi
    cases malloc with
    | true =>
      simp only [Thread.act, hrun, if_true]
      exact (tlsSetValue_ne hne _).trans (tlsFor_keeps hne)
    | false =>
      simp only [Thread.act, hrun, Bool.false_eq_true, if_false]
      exact tlsFor_keeps hne

/-- The code never refuses a number, so naming a host slot is not answered with an error. -/
theorem setThreadArea_never_refuses {s : Thread} {udesc : Addr} {answer : Word} {malloc : Bool}
    (hn : read32 s.mem udesc ≠ 0xffffffff#32) :
    ¬ ∃ result < 0, (s.act (.setThreadArea udesc answer malloc)).1 = .returned result := by
  have hx : ¬ Exhausted s.mem udesc answer := fun h => hn h.1
  have hrun := sysSetThreadArea_eq s.tls s.mem udesc answer malloc
  rw [if_neg hx] at hrun
  rintro ⟨result,hneg,hreply⟩
  cases malloc with
  | true =>
    simp only [Thread.act, hrun, if_true, Reply.returned.injEq] at hreply
    omega
  | false =>
    simp [Thread.act, hrun] at hreply

/-- One action keeps the host's TLS out of reach iff it respects it. -/
theorem isolated_iff {w : Watched} {a : GuestAction}
    (h : Watching w) (ha : Answered w a) :
    Isolated w a ↔ RespectsHost w a := by
  cases a with
  | setThreadArea udesc answer malloc =>
    constructor
    · rintro ⟨_,hrefused⟩ hhost
      have hn : read32 w.thread.mem udesc ≠ 0xffffffff#32 := by
        intro hn
        rw [hn] at hhost
        exact absurd hhost.1 (by decide)
      exact setThreadArea_never_refuses hn (hrefused hhost)
    · intro hn
      exact ⟨fun i hi => setThreadArea_keeps ha hn hi,fun hhost => absurd hhost hn⟩
  | movGs ax answer => exact Iff.rfl
  | gsRead Address answer => exact (translate_iff h.sound.made ..).trans h.armed.symm
  | gsWrite Address Data answer => exact (translate_iff h.sound.made ..).trans h.armed.symm
  | store a bytes => exact Iff.rfl

theorem loaded_congr {t t' : Tls} (hgs : t'.GsTls = t.GsTls)
    (hs : UsableShadow t.GsTls → t'.slot t.GsTls = t.slot t.GsTls) : Loaded t' ↔ Loaded t := by
  unfold Loaded
  rw [hgs]
  constructor
  · rintro ⟨hu,hk⟩
    exact ⟨hu,hs hu ▸ hk⟩
  · rintro ⟨hu,hk⟩
    exact ⟨hu,(hs hu).symm ▸ hk⟩

theorem HostOwned.ne_free {t : Tls} {handed : Word → Bool} {i j : Word}
    (h : HostOwned t handed i) (hj : FreeIndex t j) : i ≠ j :=
  hj.ne h.2.1

/-- TlsAlloc gives out a slot that was nobody's; `handed` may record it or not. -/
theorem SlotsSound.take {t : Tls} {handed handed' : Word → Bool} (h : SlotsSound t handed)
    {i : Word} (hi : FreeIndex t i) (hh : ∀ j, j ≠ i → handed' j = handed j) :
    SlotsSound (t.take i) handed' where
  made := by
    intro j k hj
    by_cases hji : j = i
    · subst hji
      rw [t.take_slot_self] at hj
      cases hj
    · exact h.made j k ((Tls.take_slot hji).symm.trans hj)
  handedOut := by
    intro j hj
    by_cases hji : j = i
    · subst hji
      exact t.take_allocated_self j
    · exact (Tls.take_allocated hji).trans (h.handedOut j (hh j hji ▸ hj))
  shadow := by
    intro hu
    have hown := h.shadow hu
    have hne := hown.ne_free hi
    refine ⟨hown.1,?_,?_⟩
    · exact (Tls.take_allocated hne).trans hown.2.1
    · exact (hh _ hne).trans hown.2.2

theorem tlsSetValue_slot (t : Tls) (i j : Word) (v : PVoid) :
    (tlsSetValue t i v).slot j = v ∨ (tlsSetValue t i v).slot j = t.slot j := by
  by_cases hji : j = i
  · subst hji
    unfold tlsSetValue
    split
    · exact .inl (Function.update_self ..)
    · exact .inr rfl
  · exact .inr (tlsSetValue_ne hji v)

theorem SlotsSound.install {t : Tls} {handed : Word → Bool} (h : SlotsSound t handed) (e : Word)
    (d : LinuxUserDesc) : SlotsSound (t.install e d) handed where
  made := by
    intro j k hj
    rw [Tls.install_heap, List.length_append, List.length_singleton]
    rcases tlsSetValue_slot { t with heap := t.heap ++ [d] } e j (.descriptor t.heap.length)
      with hnew | hold
    · have hk : k = t.heap.length := PVoid.descriptor.inj (hj.symm.trans hnew)
      omega
    · have hk := h.made j k (hold.symm.trans hj)
      omega
  handedOut := by simpa using h.handedOut
  shadow := by simpa [HostOwned] using h.shadow

/-- mov gs stores what it read into the GS slot, if that is one. -/
theorem SlotsSound.setShadow {t : Tls} {handed : Word → Bool} (h : SlotsSound t handed)
    {p : PVoid} (hp : ∀ k, p = .descriptor k → k < t.heap.length) :
    SlotsSound (tlsSetValue t t.GsTls p) handed ∧
    ((p.isDescriptor && decide (UsableShadow t.GsTls)) = true ↔
      Loaded (tlsSetValue t t.GsTls p)) := by
  refine ⟨⟨?_,?_,?_⟩,?_⟩
  · intro j k hj
    rw [tlsSetValue_heap]
    rcases tlsSetValue_slot t t.GsTls j p with hnew | hold
    · exact hp k (hnew.symm.trans hj)
    · exact h.made j k (hold.symm.trans hj)
  · simpa using h.handedOut
  · simpa [HostOwned] using h.shadow
  · rw [Bool.and_eq_true, decide_eq_true_eq, Loaded, tlsSetValue_GsTls, and_comm]
    refine and_congr_right fun hu => ?_
    rw [tlsSetValue_self hu.2]
    cases p <;> simp [PVoid.isDescriptor]

/-- CurrentGs: its slot is the one it had, or what TlsAlloc answered. -/
theorem SlotsSound.allocateShadow {t : Tls} {handed : Word → Bool} (h : SlotsSound t handed)
    {answer : Word} (ha : t.GsTls = 0#32 → TlsAnswer t answer) :
    SlotsSound (currentGs t answer).2 handed ∧
    (currentGs t answer).1 = (currentGs t answer).2.GsTls ∧
    (currentGs t answer).2.GsTls = (if t.GsTls = 0#32 then answer else t.GsTls) ∧
    (currentGs t answer).2.heap = t.heap := by
  by_cases hz : t.GsTls = 0#32
  · rw [currentGs, if_pos hz, if_pos hz]
    rcases ha hz with rfl | hi
    · have hout : ¬ UsableShadow TLS_OUT_OF_INDEXES := by decide
      exact ⟨⟨h.made,h.handedOut,fun hu => absurd hu hout⟩,rfl,rfl,rfl⟩
    · rw [tlsAlloc_free hi.ne_out]
      have htaken := h.take hi (fun _ _ => rfl)
      refine ⟨⟨htaken.made,htaken.handedOut,?_⟩,rfl,rfl,rfl⟩
      intro _
      have hnew : handed answer = false := by
        rw [← Bool.not_eq_true]
        intro hh
        have hall := h.handedOut answer hh
        rw [hi.free] at hall
        cases hall
      exact ⟨hi.inRange,t.take_allocated_self answer,hnew⟩
  · rw [currentGs_of_ne_zero hz, if_neg hz]
    exact ⟨h,rfl,rfl,rfl⟩

theorem setThreadArea_shadow (s : Thread) (udesc : Addr) (answer : Word) (malloc : Bool) :
    (s.act (.setThreadArea udesc answer malloc)).2.tls.GsTls = s.tls.GsTls := by
  simp only [Thread.act, sysSetThreadArea_eq]
  by_cases hx : Exhausted s.mem udesc answer
  · rw [if_pos hx]
  · rw [if_neg hx]
    cases malloc with
    | true => exact (Tls.install_GsTls ..).trans (tlsFor_GsTls ..)
    | false => exact tlsFor_GsTls ..

theorem SlotsSound.setThreadArea {w : Watched} (h : SlotsSound w.thread.tls w.handed)
    {udesc : Addr} {answer : Word} {malloc : Bool}
    (ha : Answered w (.setThreadArea udesc answer malloc)) :
    SlotsSound (w.thread.act (.setThreadArea udesc answer malloc)).2.tls
      (handedBy w (.setThreadArea udesc answer malloc)) := by
  simp only [Thread.act, sysSetThreadArea_eq]
  by_cases hx : Exhausted w.thread.mem udesc answer
  · rw [if_pos hx, handedBy, if_neg fun hn => hn.2 hx.2]
    exact h
  · have hfor : SlotsSound (tlsFor w.thread.tls w.thread.mem udesc answer)
        (handedBy w (.setThreadArea udesc answer malloc)) := by
      by_cases hn : read32 w.thread.mem udesc = 0xffffffff#32
      · have hout : answer ≠ TLS_OUT_OF_INDEXES := fun ho => hx ⟨hn,ho⟩
        rw [tlsFor, if_pos hn, handedBy, if_pos ⟨hn,hout⟩]
        exact h.take ((ha hn).resolve_left hout) (fun _ hj => Function.update_of_ne hj ..)
      · rw [tlsFor, if_neg hn, handedBy, if_neg fun hm => hn hm.1]
        exact h
    rw [if_neg hx]
    cases malloc with
    | true => exact hfor.install ..
    | false => exact hfor

/-- Respectful actions keep the watch. -/
theorem Watching.step {w : Watched} {a : GuestAction} (h : Watching w) (ha : Answered w a)
    (hr : RespectsHost w a) : Watching (watch w a) := by
  cases a with
  | setThreadArea udesc answer malloc =>
    refine ⟨h.sound.setThreadArea ha,h.armed.trans ?_⟩
    have hgs := setThreadArea_shadow w.thread udesc answer malloc
    exact (loaded_congr hgs fun hu => setThreadArea_keeps ha hr (h.sound.shadow hu)).symm
  | movGs ax answer =>
    obtain ⟨hcur,hindex,hshadow,hheap⟩ := h.sound.allocateShadow ha
    have hread : ∀ k, tlsGetValue w.thread.tls (selected ax) = .descriptor k →
        k < (currentGs w.thread.tls answer).2.heap.length := by
      intro k hk
      rw [hheap]
      unfold tlsGetValue at hk
      split at hk
      · exact h.sound.made _ k hk
      · cases hk
    obtain ⟨hsound,harmed⟩ := hcur.setShadow hread
    rw [← hindex] at harmed hsound
    have hflag : armedBy w (.movGs ax answer) =
        ((tlsGetValue w.thread.tls (selected ax)).isDescriptor &&
          decide (UsableShadow (currentGs w.thread.tls answer).1)) := by
      rw [hindex, hshadow]
      rfl
    refine ⟨hsound,?_⟩
    change armedBy w (.movGs ax answer) = true ↔ _
    rw [hflag]
    exact harmed
  | gsRead Address answer =>
    obtain ⟨b,hb⟩ := (gsBase_iff h.sound.made).mpr (h.armed.mp hr)
    simp only [watch, Thread.act, gsReadDword, gsTranslateAddress_of_base hb, Except.map]
    exact ⟨h.sound,h.armed⟩
  | gsWrite Address Data answer =>
    obtain ⟨b,hb⟩ := (gsBase_iff h.sound.made).mpr (h.armed.mp hr)
    simp only [watch, Thread.act, gsWriteDWord, gsTranslateAddress_of_base hb, Except.map]
    exact ⟨h.sound,h.armed⟩
  | store a bytes => exact ⟨h.sound,h.armed⟩

/-- Before the first action nothing is handed out and GS is not loaded. -/
def watchStart (t : Tls) (mem : Mem) : Watched := ⟨⟨t,mem⟩,fun _ => false,false⟩

theorem watching_start {t : Tls} (h : AtStart t) (mem : Mem) : Watching (watchStart t mem) := by
  have hunloaded : ¬ Loaded t := fun hl => hl.1.1 h.shadow
  refine ⟨⟨?_,?_,?_⟩,iff_of_false Bool.false_ne_true hunloaded⟩
  · exact fun i k hk => absurd hk (h.host i k)
  · exact fun i hi => absurd hi Bool.false_ne_true
  · exact fun hu => absurd h.shadow hu.1

/-- The host's TLS is out of the guest's reach throughout a run exactly when each
action respects it. -/
theorem tls_isolated_iff (t : Tls) (mem : Mem) (hstart : AtStart t) (actions : List GuestAction)
    (ha : EachStep watch Answered (watchStart t mem) actions) :
    EachStep watch Isolated (watchStart t mem) actions ↔
      EachStep watch RespectsHost (watchStart t mem) actions :=
  each_iff (I := Watching) (fun _ _ h ha => isolated_iff h ha) (fun _ _ h ha hr => h.step ha hr)
    (watching_start hstart mem) ha

section sample

/-- A user_desc at 1000h that names slot 0, which the host runtime holds. -/
def hostileMem : Mem := fun _ => 0#8

def hostile : List GuestAction := [.setThreadArea 0x1000#32 0#32 true]

private theorem hostile_answered :
    EachStep watch Answered (watchStart setupTls hostileMem) hostile :=
  ⟨fun hn => absurd hn (by decide),trivial⟩

theorem hostile_isolated_iff :
    EachStep watch Isolated (watchStart setupTls hostileMem) hostile ↔
      EachStep watch RespectsHost (watchStart setupTls hostileMem) hostile :=
  tls_isolated_iff setupTls hostileMem setupTls_atStart hostile hostile_answered

/-- The call answers 0, and the host's value is gone from its slot. -/
theorem hostile_overwrites_host :
    EachStep watch Answered (watchStart setupTls hostileMem) hostile ∧
    ¬ EachStep watch Isolated (watchStart setupTls hostileMem) hostile := by
  refine ⟨hostile_answered,?_⟩
  rintro ⟨⟨hkept,_⟩,_⟩
  exact absurd (hkept 0#32 (by decide)) (by decide)

end sample
end Line2.Lnexec
