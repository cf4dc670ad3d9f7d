import Line2.Lnexec.InstalledDescriptor

/-! The slot of GS over a run. CurrentGs allocates it on first use and keeps its number in
a static whose 0 means that there is none, though TlsAlloc may answer 0 or fail. -/
namespace Line2.Lnexec
open Library.Memory Library.Runs

/-- A call of gs_support.c, with what TlsAlloc answers if CurrentGs asks it, or an
allocation by other code. -/
inductive GsAction
  | load (Value : BitVec 16) (answer : Word)
  | read (Address answer : Word)
  | write (Address Data answer : Word)
  | alloc (answer : Word)

/-- The TLS and memory with their history: the slot of CurrentGs's first success, and the
pointer that the last GSLoad stored. -/
structure GsHistory where
  tls : Tls
  mem : Mem
  first : Option Word
  loaded : Option PVoid

/-- A call of CurrentGs is a success unless it returns TlsAlloc's failure. -/
def GsHistory.firstAfter (w : GsHistory) (answer : Word) : Option Word :=
  w.first.or
    (if (currentGs w.tls answer).1 = TLS_OUT_OF_INDEXES then none
      else some (currentGs w.tls answer).1)

def gsStep (w : GsHistory) : GsAction → GsHistory
  | .load Value answer => ⟨gsLoad w.tls Value answer,w.mem,w.firstAfter answer,
      some (tlsGetValue w.tls (selected Value))⟩
  | .read Address answer =>
    ⟨(gsReadDword w.tls w.mem Address answer).2,w.mem,w.firstAfter answer,w.loaded⟩
  | .write Address Data answer =>
    let (m,t) := gsWriteDWord w.tls w.mem Address Data answer
    ⟨t,m.toOption.getD w.mem,w.firstAfter answer,w.loaded⟩
  | .alloc answer => ⟨(tlsAlloc w.tls answer).2,w.mem,w.first,w.loaded⟩

/-- A property of the calls of CurrentGs. -/
def GsAction.onGs (P : Word → Prop) : GsAction → Prop
  | .load _ answer => P answer
  | .read _ answer => P answer
  | .write _ _ answer => P answer
  | .alloc _ => True

/-- A call of CurrentGs returns a slot, the first one it ever returned; it allocates none
when it already has; and the slot holds the pointer that was last loaded. -/
structure SlotStable (w : GsHistory) (answer : Word) : Prop where
  valid : (currentGs w.tls answer).1 ≠ TLS_OUT_OF_INDEXES
  same : ∀ slot, w.first = some slot → (currentGs w.tls answer).1 = slot
  once : w.tls.GsTls = 0#32 → answer ≠ TLS_OUT_OF_INDEXES → w.first = none
  pointer : ∀ p, w.loaded = some p →
    tlsGetValue (currentGs w.tls answer).2 (currentGs w.tls answer).1 = p

/-- TlsAlloc's contract, for GS and for others. -/
def GsLegal (w : GsHistory) : GsAction → Prop
  | .alloc answer => TlsAnswer w.tls answer
  | a => a.onGs fun answer => w.tls.GsTls = 0#32 → TlsAnswer w.tls answer

/-- The static holds a slot, or no slot was had yet and TlsAlloc does not fail. -/
def SlotKnown (w : GsHistory) (answer : Word) : Prop :=
  w.tls.GsTls ≠ 0#32 ∨ w.first = none ∧ answer ≠ TLS_OUT_OF_INDEXES

/-- The invariant. A static that is not 0 is the first slot, allocated, and holds the pointer
last loaded; one that is 0 goes with no success so far, or with slot 0. -/
structure SlotKept (w : GsHistory) : Prop where
  known : w.tls.GsTls ≠ 0#32 → w.first = some w.tls.GsTls ∧ w.tls.GsTls.toNat < TLS_SLOTS ∧
    w.tls.allocated w.tls.GsTls = true ∧ ∀ p, w.loaded = some p → w.tls.slot w.tls.GsTls = p
  unknown : w.tls.GsTls = 0#32 →
    w.first = none ∧ w.loaded = none ∨ w.first = some 0#32 ∧ w.tls.allocated 0#32 = true

/-- Nothing was loaded before the first success. -/
theorem SlotKept.unloaded {w : GsHistory} (h : SlotKept w) (hz : w.tls.GsTls = 0#32)
    (hfirst : w.first = none) : w.loaded = none := by
  rcases h.unknown hz with ⟨_,hloaded⟩ | ⟨hsome,_⟩
  · exact hloaded
  · rw [hfirst] at hsome
    cases hsome

/-- A slot that the static holds stays the slot. -/
theorem SlotKept.stable {w : GsHistory} (h : SlotKept w) (hz : w.tls.GsTls ≠ 0#32)
    (answer : Word) : SlotStable w answer := by
  obtain ⟨hfirst,hrange,_,hpointer⟩ := h.known hz
  have hcur := currentGs_of_ne_zero hz answer
  constructor
  · rw [hcur]
    intro hout
    change w.tls.GsTls = _ at hout
    rw [hout] at hrange
    exact absurd hrange (by decide)
  · rw [hcur, hfirst]
    exact fun _ hsome => Option.some.inj hsome
  · exact fun hzero => absurd hzero hz
  · rw [hcur]
    exact fun p hp => (if_pos hrange).trans (hpointer p hp)

/-- One call of CurrentGs is stable iff the slot is known, or found by it. -/
theorem slotStable_iff {w : GsHistory} (h : SlotKept w) (answer : Word) :
    SlotStable w answer ↔ SlotKnown w answer := by
  by_cases hz : w.tls.GsTls = 0#32
  · have hslot : (currentGs w.tls answer).1 = answer := by
      rw [(currentGs_eq_shadowFor w.tls answer).1, shadowFor, if_pos hz]
    constructor
    · intro hs
      have hvalid := hs.valid
      rw [hslot] at hvalid
      exact .inr ⟨hs.once hz hvalid,hvalid⟩
    · intro hk
      obtain ⟨hfirst,hvalid⟩ := hk.resolve_left (fun hne => hne hz)
      constructor
      · rwa [hslot]
      · intro slot hsome
        rw [hfirst] at hsome
        cases hsome
      · exact fun _ _ => hfirst
      · intro p hsome
        rw [h.unloaded hz hfirst] at hsome
        cases hsome
  · exact iff_of_true (h.stable hz answer) (.inl hz)

/-- After a stable call the slot is the first one, and the history still holds. -/
theorem SlotKept.current {w : GsHistory} (h : SlotKept w) {answer : Word}
    (ha : w.tls.GsTls = 0#32 → TlsAnswer w.tls answer) (hk : SlotKnown w answer) (m : Mem) :
    SlotKept ⟨(currentGs w.tls answer).2,m,w.firstAfter answer,w.loaded⟩ ∧
    w.firstAfter answer = some (currentGs w.tls answer).2.GsTls ∧
    (currentGs w.tls answer).1 = (currentGs w.tls answer).2.GsTls ∧
    (currentGs w.tls answer).2.GsTls.toNat < TLS_SLOTS := by
  by_cases hz : w.tls.GsTls = 0#32
  · obtain ⟨hfirst,hvalid⟩ := hk.resolve_left (fun hne => hne hz)
    have hfree := (ha hz).resolve_left hvalid
    have hcur : currentGs w.tls answer = (answer,{w.tls.take answer with GsTls := answer}) := by
      rw [currentGs, if_pos hz, tlsAlloc_free hvalid]
    have hafter : w.firstAfter answer = some answer := by
      rw [GsHistory.firstAfter, hcur, hfirst]
      simp [hvalid]
    rw [hafter, hcur]
    refine ⟨⟨?_,?_⟩,rfl,rfl,hfree.inRange⟩
    · intro _
      refine ⟨rfl,hfree.inRange,w.tls.take_allocated_self answer,?_⟩
      intro p hsome
      change w.loaded = some p at hsome
      rw [h.unloaded hz hfirst] at hsome
      cases hsome
    · intro hzero
      change answer = 0#32 at hzero
      rw [hzero]
      exact .inr ⟨rfl,w.tls.take_allocated_self 0#32⟩
  · obtain ⟨hfirst,hrange,_,_⟩ := h.known hz
    have hafter : w.firstAfter answer = some w.tls.GsTls := by
      rw [GsHistory.firstAfter, hfirst]
      rfl
    rw [currentGs_of_ne_zero hz, hafter, ← hfirst]
    exact ⟨⟨h.known,h.unknown⟩,rfl,rfl,hrange⟩

/-- GSLoad's store: the first slot now holds the pointer. -/
theorem SlotKept.store {t : Tls} {m : Mem} {first : Option Word} {loaded : Option PVoid}
    (h : SlotKept ⟨t,m,first,loaded⟩) (hfirst : first = some t.GsTls) (p : PVoid) :
    SlotKept ⟨tlsSetValue t t.GsTls p,m,first,some p⟩ := by
  constructor
  · intro hz
    rw [tlsSetValue_GsTls] at hz
    obtain ⟨hf,hrange,hal,_⟩ := h.known hz
    simp only [tlsSetValue_GsTls, tlsSetValue_allocated, Option.some.injEq]
    refine ⟨hf,hrange,hal,?_⟩
    rintro _ rfl
    exact tlsSetValue_self hrange _
  · intro hz
    rw [tlsSetValue_GsTls] at hz
    rcases h.unknown hz with ⟨hf,_⟩ | ⟨hf,hal⟩
    · rw [hfirst] at hf
      cases hf
    · exact .inr ⟨hf,by simpa using hal⟩

/-- Another allocation takes a slot that is not GS's. -/
theorem SlotKept.alloc {w : GsHistory} (h : SlotKept w) {answer : Word}
    (ha : TlsAnswer w.tls answer) : SlotKept (gsStep w (.alloc answer)) := by
  rcases ha with rfl | hfree
  · exact h
  · rw [gsStep, tlsAlloc_free hfree.ne_out]
    constructor
    · intro hz
      obtain ⟨hfirst,hrange,hal,hpointer⟩ := h.known hz
      have hne := hfree.ne hal
      refine ⟨hfirst,hrange,(Tls.take_allocated hne).trans hal,?_⟩
      exact fun p hp => (Tls.take_slot hne).trans (hpointer p hp)
    · intro hz
      refine (h.unknown hz).imp id ?_
      rintro ⟨hfirst,hal⟩
      exact ⟨hfirst,(Tls.take_allocated (hfree.ne hal)).trans hal⟩

theorem SlotKept.step {w : GsHistory} {a : GsAction} (h : SlotKept w) (ha : GsLegal w a)
    (hk : a.onGs (SlotKnown w)) : SlotKept (gsStep w a) := by
  cases a with
  | load Value answer =>
    obtain ⟨hcur,hfirst,hindex,_⟩ := h.current ha hk w.mem
    have hstored := hcur.store hfirst (tlsGetValue w.tls (selected Value))
    rw [← hindex] at hstored
    exact hstored
  | read Address answer => exact (h.current ha hk w.mem).1
  | write Address Data answer => exact (h.current ha hk _).1
  | alloc answer => exact h.alloc ha

/-- CurrentGs is stable throughout a run, whatever TlsAlloc's contract lets it answer and
whatever others allocate, iff no allocation for GS fails and none that answers 0 is
followed by another call for GS. -/
theorem gs_slot_stable_iff (t : Tls) (m : Mem) (hstart : t.GsTls = 0#32) (actions : List GsAction)
    (ha : EachStep gsStep GsLegal ⟨t,m,none,none⟩ actions) :
    EachStep gsStep (fun w a => a.onGs (SlotStable w)) ⟨t,m,none,none⟩ actions ↔
      EachStep gsStep (fun w a => a.onGs (SlotKnown w)) ⟨t,m,none,none⟩ actions := by
  refine each_iff (I := SlotKept) ?_ (fun _ _ h ha hk => h.step ha hk) ?_ ha
  · intro w a h _
    cases a with
    | load Value answer => exact slotStable_iff h answer
    | read Address answer => exact slotStable_iff h answer
    | write Address Data answer => exact slotStable_iff h answer
    | alloc answer => exact Iff.rfl
  · exact ⟨fun hz => absurd hstart hz,fun _ => .inl ⟨rfl,rfl⟩⟩

section sample

/-- A thread none of whose slots is taken. -/
def freeTls : Tls := ⟨fun _ => false,fun _ => .null,[],0#32⟩

/-- TlsAlloc answers 0 to the load, and is asked again by the read. -/
def slotZero : List GsAction := [.load 0x33#16 0#32,.read 0#32 1#32]

/-- TlsAlloc fails, and the failure goes to TlsSetValue as a slot. -/
def noSlot : List GsAction := [.load 0x33#16 TLS_OUT_OF_INDEXES]

private theorem slotZero_legal :
    EachStep gsStep GsLegal ⟨freeTls,fun _ => 0#8,none,none⟩ slotZero :=
  ⟨fun _ => .inr ⟨by decide,rfl⟩,fun _ => .inr ⟨by decide,by decide⟩,trivial⟩

theorem slotZero_stable_iff :
    EachStep gsStep (fun w a => a.onGs (SlotStable w)) ⟨freeTls,fun _ => 0#8,none,none⟩ slotZero ↔
      EachStep gsStep (fun w a => a.onGs (SlotKnown w)) ⟨freeTls,fun _ => 0#8,none,none⟩ slotZero :=
  gs_slot_stable_iff freeTls _ rfl slotZero slotZero_legal

/-- Two runs that TlsAlloc's contract allows: one takes a second slot, and one uses what no
allocation gave it. -/
theorem currentGs_unstable :
    (EachStep gsStep GsLegal ⟨freeTls,fun _ => 0#8,none,none⟩ slotZero ∧
      ¬ EachStep gsStep (fun w a => a.onGs (SlotStable w)) ⟨freeTls,fun _ => 0#8,none,none⟩
        slotZero) ∧
    (EachStep gsStep GsLegal ⟨freeTls,fun _ => 0#8,none,none⟩ noSlot ∧
      ¬ EachStep gsStep (fun w a => a.onGs (SlotStable w)) ⟨freeTls,fun _ => 0#8,none,none⟩
        noSlot) := by
  refine ⟨⟨slotZero_legal,?_⟩,⟨fun _ => .inl rfl,trivial⟩,?_⟩
  · rintro ⟨_,hread,_⟩
    have hfirst := SlotStable.once hread rfl (by decide)
    cases hfirst
  · rintro ⟨hload,_⟩
    exact SlotStable.valid hload rfl

end sample
end Line2.Lnexec
