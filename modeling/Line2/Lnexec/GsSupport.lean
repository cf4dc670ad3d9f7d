import Mathlib.Logic.Function.Basic
import Line2.Library.Memory

/-! `gs_support.c`: the emulated GS register. Its shadow is a TLS slot, allocated
on first use, that holds a pointer to a descriptor of `sys_set_thread_area`. -/
namespace Line2.Lnexec
open Library.Memory

/-- `linux_user_desc_t`; the six bit-fields share the fourth dword. -/
structure LinuxUserDesc where
  entry_number : Word
  base_addr : Word
  limit : Word
  flags : Word
  deriving DecidableEq

/-- What a TLS slot can hold: NULL, a `malloc`ed descriptor (by its position in
the order of allocation), or any value of the host runtime. -/
inductive PVoid
  | null
  | descriptor (block : Nat)
  | host (value : Word)
  deriving DecidableEq

/-- The thread's TLS, the blocks `malloc`ed so far, and the static `GsTls`. -/
structure Tls where
  allocated : Word → Bool
  slot : Word → PVoid
  heap : List LinuxUserDesc
  GsTls : Word

/-- 64 slots in the TEB and 1024 expansion slots. -/
def TLS_SLOTS : Nat := 1088

def TLS_OUT_OF_INDEXES : Word := 0xffffffff#32

/-- `TlsAlloc`; the index it answers is the system's choice. A slot handed out
starts as NULL. -/
def tlsAlloc (t : Tls) (answer : Word) : Word × Tls :=
  if answer = TLS_OUT_OF_INDEXES then (answer,t)
  else (answer,{ t with
    allocated := Function.update t.allocated answer true
    slot := Function.update t.slot answer .null })

def tlsGetValue (t : Tls) (i : Word) : PVoid :=
  if i.toNat < TLS_SLOTS then t.slot i else .null

def tlsSetValue (t : Tls) (i : Word) (v : PVoid) : Tls :=
  if i.toNat < TLS_SLOTS then { t with slot := Function.update t.slot i v } else t

/-- Zero means not yet allocated, whatever `TlsAlloc` answered before. -/
def currentGs (t : Tls) (answer : Word) : Word × Tls :=
  if t.GsTls = 0#32 then
    let (i,t') := tlsAlloc t answer
    (i,{ t' with GsTls := i })
  else (t.GsTls,t)

def gsLoad (t : Tls) (Value : BitVec 16) (answer : Word) : Tls :=
  let TlsSlot := (Value >>> 3).setWidth 32
  let pDescriptor := tlsGetValue t TlsSlot
  let (i,t') := currentGs t answer
  tlsSetValue t' i pDescriptor

/-- A pointer dereferenced that is no descriptor. -/
inductive Fault
  | nullDescriptor
  | hostPointer (value : Word)
  | unmappedBlock (block : Nat)
  | nullBlock
  deriving DecidableEq

/-- `pDescriptor->base_addr` -/
def baseAddr (t : Tls) : PVoid → Except Fault Word
  | .null => .error .nullDescriptor
  | .host v => .error (.hostPointer v)
  | .descriptor k => (t.heap[k]?).elim (.error (.unmappedBlock k)) (fun d => .ok d.base_addr)

def gsTranslateAddress (t : Tls) (Address answer : Word) : Except Fault Addr × Tls :=
  let (i,t') := currentGs t answer
  ((baseAddr t' (tlsGetValue t' i)).map (· + Address),t')

def gsWriteDWord (t : Tls) (m : Mem) (Address Data answer : Word) : Except Fault Mem × Tls :=
  let (a,t') := gsTranslateAddress t Address answer
  (a.map (fun p => write32 m p Data),t')

def gsReadDword (t : Tls) (m : Mem) (Address answer : Word) : Except Fault Word × Tls :=
  let (a,t') := gsTranslateAddress t Address answer
  (a.map (fun p => read32 m p),t')

/-- The base behind the loaded GS, if its slot is allocated and filled. -/
def gsBase (t : Tls) : Option Word :=
  if t.GsTls = 0#32 then none else (baseAddr t (tlsGetValue t t.GsTls)).toOption

@[simp] theorem baseAddr_null (t : Tls) : baseAddr t .null = .error .nullDescriptor := rfl

theorem currentGs_of_ne_zero {t : Tls} (h : t.GsTls ≠ 0#32) (answer : Word) :
    currentGs t answer = (t.GsTls,t) :=
  if_neg h

/-- A slot just allocated holds NULL, and so does the index of a failure. -/
theorem tlsGetValue_fresh (t : Tls) (answer : Word) :
    tlsGetValue (tlsAlloc t answer).2 (tlsAlloc t answer).1 = .null := by
  unfold tlsAlloc
  split
  · rename_i h
    rw [h]
    rfl
  · simp [tlsGetValue]

/-- With GS loaded, translation adds the base and leaves the TLS alone. -/
theorem gsTranslateAddress_of_base {t : Tls} {b : Word} (h : gsBase t = some b)
    (Address answer : Word) : gsTranslateAddress t Address answer = (.ok (b + Address),t) := by
  unfold gsBase at h
  split at h
  · cases h
  · rename_i h0
    rw [gsTranslateAddress, currentGs_of_ne_zero h0]
    cases hb : baseAddr t (tlsGetValue t t.GsTls) with
    | error f => simp [hb, Except.toOption] at h
    | ok b' =>
      simp only [hb, Except.toOption, Option.some.injEq] at h
      simp [hb, Except.map, h]

/-- Conversely an access goes through only when GS has a base: a slot that the
access itself allocates is still NULL. -/
theorem gsBase_of_translate {t t' : Tls} {Address answer : Word} {p : Addr}
    (h : gsTranslateAddress t Address answer = (.ok p,t')) :
    ∃ b, gsBase t = some b ∧ p = b + Address ∧ t' = t := by
  by_cases h0 : t.GsTls = 0#32
  · have hnull := tlsGetValue_fresh t answer
    have hslot : tlsGetValue { (tlsAlloc t answer).2 with GsTls := (tlsAlloc t answer).1 }
        (tlsAlloc t answer).1 = .null := hnull
    simp [gsTranslateAddress, currentGs, h0, hslot, Except.map] at h
  · rw [gsTranslateAddress, currentGs_of_ne_zero h0] at h
    cases hb : baseAddr t (tlsGetValue t t.GsTls) with
    | error f => simp [hb, Except.map] at h
    | ok b =>
      simp only [hb, Except.map, Prod.mk.injEq, Except.ok.injEq] at h
      refine ⟨b,?_,h.1.symm,h.2.symm⟩
      simp [gsBase, h0, hb, Except.toOption]

end Line2.Lnexec
