import Line2.Lnexec.ThreadPointer
import Line2.Lnexec.TlsIsolation

/-! What set_thread_area's success is worth. The number, the pointer that malloc gave and
TlsSetValue's answer go unchecked, and GS reaches the descriptor through a slot of its own. -/
namespace Line2.Lnexec
open Library.Memory

/-- The selector that the guest's startup code makes of an entry number. -/
def selectorOf (entry : Word) : BitVec 16 := (entry <<< 3 ||| 3#32).setWidth 16

/-- The number names a slot, and once its selector is loaded an access at any offset goes
to the base plus the offset, whatever TlsAlloc still answers. -/
structure Installed (t : Tls) (entry base gsAnswer : Word) : Prop where
  slot : entry.toNat < TLS_SLOTS
  access : ∀ Address answer : Word,
    (gsTranslateAddress (gsLoad t (selectorOf entry) gsAnswer) Address answer).1 =
      .ok (base + Address)

/-- What a call owes its caller: the descriptor with 0, unchanged slots with an errno. -/
def AnswersTruly (t : Tls) (m : Mem) (udesc : Addr) (gsAnswer : Word) :
    Except Fault Int × Tls × Mem → Prop
  | (.error _,_,_) => False
  | (.ok result,t',m') =>
    if result = 0 then Installed t' (read32 m' udesc) (read32 m (udesc + 4#32)) gsAnswer
    else result < 0 ∧ t'.slot = t.slot

/-- The slot that GS has, or that TlsAlloc will give it. -/
def shadowFor (t : Tls) (gsAnswer : Word) : Word := if t.GsTls = 0#32 then gsAnswer else t.GsTls

/-- TlsAlloc is asked and fails; or malloc does not, the number is a slot's, and so is the
one for GS, which is not 0. -/
def Installable (t : Tls) (m : Mem) (udesc : Addr) (answer : Word) (malloc : Bool)
    (gsAnswer : Word) : Prop :=
  Exhausted m udesc answer ∨
    malloc = true ∧ (entryOf m udesc answer).toNat < TLS_SLOTS ∧ UsableShadow (shadowFor t gsAnswer)

theorem tlsAlloc_index (t : Tls) (answer : Word) :
    (tlsAlloc t answer).1 = answer ∧ (tlsAlloc t answer).2.heap = t.heap := by
  unfold tlsAlloc
  split <;> exact ⟨rfl,rfl⟩

theorem currentGs_eq_shadowFor (t : Tls) (answer : Word) :
    (currentGs t answer).1 = shadowFor t answer ∧
    (currentGs t answer).2.GsTls = shadowFor t answer ∧ (currentGs t answer).2.heap = t.heap := by
  unfold currentGs shadowFor
  by_cases hz : t.GsTls = 0#32
  · obtain ⟨hindex,hheap⟩ := tlsAlloc_index t answer
    rw [if_pos hz, if_pos hz]
    exact ⟨hindex,hindex,hheap⟩
  · rw [if_neg hz, if_neg hz]
    exact ⟨rfl,rfl,rfl⟩

@[simp] theorem gsLoad_GsTls (t : Tls) (Value : BitVec 16) (answer : Word) :
    (gsLoad t Value answer).GsTls = shadowFor t answer :=
  (tlsSetValue_GsTls ..).trans (currentGs_eq_shadowFor t answer).2.1

/-- Through a slot of its own GS gets the base behind the selected slot. -/
theorem gsBase_gsLoad {t : Tls} {answer : Word} (h : UsableShadow (shadowFor t answer))
    (Value : BitVec 16) : gsBase (gsLoad t Value answer) =
      (baseAddr t (tlsGetValue t (selected Value))).toOption := by
  obtain ⟨hslot,_,hheap⟩ := currentGs_eq_shadowFor t answer
  have hself : (gsLoad t Value answer).slot (shadowFor t answer) =
      tlsGetValue t (selected Value) := by
    change (tlsSetValue (currentGs t answer).2 (currentGs t answer).1 _).slot _ = _
    rw [hslot]
    exact tlsSetValue_self h.2 _
  have husable : UsableShadow (gsLoad t Value answer).GsTls := by
    rwa [gsLoad_GsTls]
  rw [gsBase_usable husable, gsLoad_GsTls, hself]
  exact congrArg Except.toOption (baseAddr_congr ((tlsSetValue_heap ..).trans hheap) _)

theorem selected_selectorOf {entry : Word} (h : entry.toNat < TLS_SLOTS) :
    selected (selectorOf entry) = entry :=
  selected_selector (Nat.lt_trans h (by decide)) (by decide)

/-- A descriptor just stored under a slot is installed iff GS gets a slot of its own. -/
theorem installed_iff (t : Tls) (entry gsAnswer : Word) (d : LinuxUserDesc) :
    Installed (t.install entry d) entry d.base_addr gsAnswer ↔
      entry.toNat < TLS_SLOTS ∧ UsableShadow (shadowFor t gsAnswer) := by
  have hshadow : shadowFor (t.install entry d) gsAnswer = shadowFor t gsAnswer := by
    rw [shadowFor, Tls.install_GsTls, shadowFor]
  constructor
  · rintro ⟨hslot,haccess⟩
    refine ⟨hslot,?_⟩
    obtain ⟨b,hb,_⟩ := gsBase_of_translate (Prod.ext (haccess 0#32 0#32) rfl)
    have husable := usable_of_gsBase hb
    rwa [gsLoad_GsTls, hshadow] at husable
  · rintro ⟨hslot,husable⟩
    refine ⟨hslot,fun Address answer => ?_⟩
    have hread : tlsGetValue (t.install entry d) entry = .descriptor t.heap.length :=
      (if_pos hslot).trans (tlsSetValue_self hslot _)
    have hbase : gsBase (gsLoad (t.install entry d) (selectorOf entry) gsAnswer) =
        some d.base_addr := by
      rw [gsBase_gsLoad (hshadow ▸ husable), selected_selectorOf hslot, hread, baseAddr_install]
      rfl
    rw [gsTranslateAddress_of_base hbase]

/-- set_thread_area's answer is true, for every descriptor, TLS state and allocation, if and
only if TlsAlloc had no index, or nothing on the way to GS failed unnoticed. -/
theorem setThreadArea_answers_iff (t : Tls) (m : Mem) (udesc : Addr) (answer : Word)
    (malloc : Bool) (gsAnswer : Word) :
    AnswersTruly t m udesc gsAnswer (sysSetThreadArea t m udesc answer malloc) ↔
      Installable t m udesc answer malloc gsAnswer := by
  rw [sysSetThreadArea_eq, Installable]
  by_cases hx : Exhausted m udesc answer
  · rw [if_pos hx]
    exact iff_of_true ⟨by decide,rfl⟩ (.inl hx)
  · rw [if_neg hx, or_iff_right hx]
    cases malloc with
    | false => exact iff_of_false id (fun h => Bool.false_ne_true h.1)
    | true =>
      have hinstalled := installed_iff (tlsFor t m udesc answer) (entryOf m udesc answer) gsAnswer
        (readUserDesc (write32 m udesc (entryOf m udesc answer)) udesc)
      have hshadow : shadowFor (tlsFor t m udesc answer) gsAnswer = shadowFor t gsAnswer := by
        rw [shadowFor, tlsFor_GsTls, shadowFor]
      rw [base_after_number, hshadow] at hinstalled
      simp only [AnswersTruly, if_true, read32_write32, true_and]
      exact hinstalled

section sample

/-- A user_desc at 1000h that names entry 1088, one past the last slot. -/
def pastSlotsMem : Mem := write32 (fun _ => 0#8) 0x1000#32 0x440#32

/-- The call answers 0 and installs nothing. -/
theorem pastSlots_untrue : ¬ AnswersTruly setupTls pastSlotsMem 0x1000#32 6#32
    (sysSetThreadArea setupTls pastSlotsMem 0x1000#32 5#32 true) := by
  intro h
  rw [sysSetThreadArea_eq, if_neg (by decide)] at h
  simp only [AnswersTruly, if_true, read32_write32] at h
  exact absurd h.slot (by decide)

end sample
end Line2.Lnexec
