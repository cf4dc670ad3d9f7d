import Line2.Lnexec.SysTls
import Line2.Library.Runs

/-! What one guest thread can do to its TLS: set_thread_area, mov gs,ax, dword
accesses through GS, and its own stores. The blocks that set_thread_area
allocates lie in the host's heap, outside what those stores reach. -/
namespace Line2.Lnexec
open Library.Memory

/-- `answer` is what TlsAlloc returns if the action calls it, `malloc` whether malloc succeeds. -/
inductive GuestAction
  | setThreadArea (udesc : Addr) (answer : Word) (malloc : Bool)
  | movGs (ax : BitVec 16) (answer : Word)
  | gsRead (Address answer : Word)
  | gsWrite (Address Data answer : Word)
  | store (a : Addr) (bytes : List Byte)

inductive Reply
  | done
  | returned (result : Int)
  | read (value : Word)
  | fault (f : Fault)
  deriving DecidableEq

structure Thread where
  tls : Tls
  mem : Mem

def Thread.act (s : Thread) : GuestAction → Reply × Thread
  | .setThreadArea udesc answer malloc =>
    match sysSetThreadArea s.tls s.mem udesc answer malloc with
    | (.ok result,t,m) => (.returned result,⟨t,m⟩)
    | (.error f,t,m) => (.fault f,⟨t,m⟩)
  | .movGs ax answer => (.done,⟨gsLoad s.tls ax answer,s.mem⟩)
  | .gsRead Address answer =>
    match gsReadDword s.tls s.mem Address answer with
    | (.ok v,t) => (.read v,⟨t,s.mem⟩)
    | (.error f,t) => (.fault f,⟨t,s.mem⟩)
  | .gsWrite Address Data answer =>
    match gsWriteDWord s.tls s.mem Address Data answer with
    | (.ok m,t) => (.done,⟨t,m⟩)
    | (.error f,t) => (.fault f,⟨t,s.mem⟩)
  | .store a bytes => (.done,⟨s.tls,store s.mem a bytes⟩)

/-- The slot a selector names, whatever its low three bits. -/
def selected (ax : BitVec 16) : Word := (ax >>> 3).setWidth 32

/-- Before the guest runs: CurrentGs has not been called and no descriptor made;
the host runtime may have taken any slots and put anything there. -/
structure AtStart (t : Tls) : Prop where
  shadow : t.GsTls = 0#32
  heap : t.heap = []
  host : ∀ i k, t.slot i ≠ .descriptor k

/-- An index TlsAlloc may return. -/
structure FreeIndex (t : Tls) (i : Word) : Prop where
  inRange : i.toNat < TLS_SLOTS
  free : t.allocated i = false

theorem FreeIndex.ne_out {t : Tls} {i : Word} (h : FreeIndex t i) : i ≠ TLS_OUT_OF_INDEXES := by
  rintro rfl
  exact absurd h.inRange (by decide)

theorem FreeIndex.ne {t : Tls} {i j : Word} (h : FreeIndex t i) (hj : t.allocated j = true) :
    j ≠ i := by
  rintro rfl
  rw [h.free] at hj
  cases hj

/-- The TLS after a TlsAlloc that answered `i`. -/
def Tls.take (t : Tls) (i : Word) : Tls :=
  { t with allocated := Function.update t.allocated i true, slot := Function.update t.slot i .null }

theorem Tls.take_slot {t : Tls} {i j : Word} (h : j ≠ i) : (t.take i).slot j = t.slot j :=
  Function.update_of_ne h ..

theorem Tls.take_allocated {t : Tls} {i j : Word} (h : j ≠ i) :
    (t.take i).allocated j = t.allocated j :=
  Function.update_of_ne h ..

@[simp] theorem Tls.take_slot_self (t : Tls) (i : Word) : (t.take i).slot i = .null :=
  Function.update_self ..

@[simp] theorem Tls.take_allocated_self (t : Tls) (i : Word) : (t.take i).allocated i = true :=
  Function.update_self ..

theorem tlsAlloc_free {t : Tls} {i : Word} (h : i ≠ TLS_OUT_OF_INDEXES) :
    tlsAlloc t i = (i,t.take i) :=
  if_neg h

/-- The TLS once a descriptor is stored under entry `e`. -/
def Tls.install (t : Tls) (e : Word) (d : LinuxUserDesc) : Tls :=
  tlsSetValue { t with heap := t.heap ++ [d] } e (.descriptor t.heap.length)

@[simp] theorem tlsSetValue_heap (t : Tls) (i : Word) (v : PVoid) :
    (tlsSetValue t i v).heap = t.heap := by
  unfold tlsSetValue; split <;> rfl

@[simp] theorem tlsSetValue_allocated (t : Tls) (i : Word) (v : PVoid) :
    (tlsSetValue t i v).allocated = t.allocated := by
  unfold tlsSetValue; split <;> rfl

@[simp] theorem tlsSetValue_GsTls (t : Tls) (i : Word) (v : PVoid) :
    (tlsSetValue t i v).GsTls = t.GsTls := by
  unfold tlsSetValue; split <;> rfl

theorem tlsSetValue_self {t : Tls} {i : Word} (h : i.toNat < TLS_SLOTS) (v : PVoid) :
    (tlsSetValue t i v).slot i = v := by
  rw [tlsSetValue, if_pos h]
  exact Function.update_self ..

theorem tlsSetValue_ne {t : Tls} {i j : Word} (h : j ≠ i) (v : PVoid) :
    (tlsSetValue t i v).slot j = t.slot j := by
  unfold tlsSetValue
  split
  · exact Function.update_of_ne h ..
  · rfl

@[simp] theorem Tls.install_heap (t : Tls) (e : Word) (d : LinuxUserDesc) :
    (t.install e d).heap = t.heap ++ [d] :=
  tlsSetValue_heap ..

@[simp] theorem Tls.install_allocated (t : Tls) (e : Word) (d : LinuxUserDesc) :
    (t.install e d).allocated = t.allocated :=
  tlsSetValue_allocated ..

@[simp] theorem Tls.install_GsTls (t : Tls) (e : Word) (d : LinuxUserDesc) :
    (t.install e d).GsTls = t.GsTls :=
  tlsSetValue_GsTls ..

/-- A pointer's base depends on the blocks alone, and these only grow. -/
theorem baseAddr_grow {t t' : Tls} {ds : List LinuxUserDesc} (h : t'.heap = t.heap ++ ds)
    {p : PVoid} {b : Word} (hp : baseAddr t p = .ok b) : baseAddr t' p = .ok b := by
  cases p with
  | null => cases hp
  | host v => cases hp
  | descriptor k =>
    simp only [baseAddr] at hp ⊢
    cases hk : t.heap[k]? with
    | none => simp [hk] at hp
    | some d =>
      rw [h, List.getElem?_append_left (List.getElem?_eq_some_iff.mp hk).1]
      simpa [hk] using hp

theorem baseAddr_congr {t t' : Tls} (h : t'.heap = t.heap) (p : PVoid) :
    baseAddr t' p = baseAddr t p := by
  cases p with
  | null => rfl
  | host v => rfl
  | descriptor k => rw [baseAddr, baseAddr, h]

theorem baseAddr_install (t : Tls) (e : Word) (d : LinuxUserDesc) :
    baseAddr (t.install e d) (.descriptor t.heap.length) = .ok d.base_addr := by
  simp [baseAddr]

/-- The number `sys_set_thread_area` installs under: the guest's, or TlsAlloc's. -/
def entryOf (m : Mem) (udesc : Addr) (answer : Word) : Word :=
  if read32 m udesc = 0xffffffff#32 then answer else read32 m udesc

/-- The TLS the descriptor goes into, after the TlsAlloc if there is one. -/
def tlsFor (t : Tls) (m : Mem) (udesc : Addr) (answer : Word) : Tls :=
  if read32 m udesc = 0xffffffff#32 then t.take answer else t

@[simp] theorem tlsFor_GsTls (t : Tls) (m : Mem) (udesc : Addr) (answer : Word) :
    (tlsFor t m udesc answer).GsTls = t.GsTls := by
  unfold tlsFor
  split <;> rfl

/-- TlsAlloc is asked and has no index left. -/
def Exhausted (m : Mem) (udesc : Addr) (answer : Word) : Prop :=
  read32 m udesc = 0xffffffff#32 ∧ answer = TLS_OUT_OF_INDEXES

instance (m : Mem) (udesc : Addr) (answer : Word) : Decidable (Exhausted m udesc answer) :=
  inferInstanceAs (Decidable (_ ∧ _))

/-- Everything `sys_set_thread_area` can do. -/
theorem sysSetThreadArea_eq (t : Tls) (m : Mem) (udesc : Addr) (answer : Word) (malloc : Bool) :
    sysSetThreadArea t m udesc answer malloc =
      if Exhausted m udesc answer then (.ok (-LINUX_ESRCH),t,m)
      else
        let e := entryOf m udesc answer
        let m' := write32 m udesc e
        if malloc then
          (.ok 0,(tlsFor t m udesc answer).install e (readUserDesc m' udesc),m')
        else (.error .nullBlock,tlsFor t m udesc answer,m') := by
  by_cases hn : read32 m udesc = 0xffffffff#32
  · by_cases ha : answer = TLS_OUT_OF_INDEXES
    · have hout : read32 m udesc = TLS_OUT_OF_INDEXES := hn
      have hsame : write32 m udesc TLS_OUT_OF_INDEXES = m :=
        (congrArg (write32 m udesc) hout.symm).trans (write32_read32 m udesc)
      rw [if_pos ⟨hn,ha⟩]
      simp only [sysSetThreadArea, if_pos hn, tlsAlloc, ha, if_true, hsame, if_pos hout]
    · have hne : ¬ Exhausted m udesc answer := fun h => ha h.2
      rw [if_neg hne]
      simp only [sysSetThreadArea, if_pos hn, tlsAlloc_free ha, read32_write32, if_neg ha,
        installDescriptor, entryOf, tlsFor, Tls.install]
  · have hne : ¬ Exhausted m udesc answer := fun h => hn h.1
    rw [if_neg hne]
    simp only [sysSetThreadArea, if_neg hn, installDescriptor, entryOf, tlsFor, write32_read32,
      Tls.install]

/-- A thread whose host runtime holds slot 0. -/
def setupTls : Tls := ⟨fun i => i = 0#32,fun i => if i = 0#32 then .host 0x77#32 else .null,[],0#32⟩

theorem setupTls_atStart : AtStart setupTls where
  shadow := rfl
  heap := rfl
  host := by
    intro i k
    simp only [setupTls]
    split <;> exact PVoid.noConfusion

end Line2.Lnexec
