import Line2.Lnexec.ThreadArea

/-! The thread pointer as the guest means it: a table of bases by entry, and the
base that GS got from it when it was last loaded. The TLS slots represent it. -/
namespace Line2.Lnexec
open Library.Memory Library.Runs

/-- The base last installed under each entry, the base in GS, and the guest's memory. -/
structure Segments where
  entry : Word → Option Word
  gs : Option Word
  mem : Mem

def Segments.act (g : Segments) : GuestAction → Reply × Segments
  | .setThreadArea udesc answer malloc =>
    if Exhausted g.mem udesc answer then (.returned (-LINUX_ESRCH),g)
    else
      let e := entryOf g.mem udesc answer
      let mem := write32 g.mem udesc e
      if malloc then
        let base := read32 g.mem (udesc + 4#32)
        (.returned 0,⟨Function.update g.entry e (some base),g.gs,mem⟩)
      else (.fault .nullBlock,⟨g.entry,g.gs,mem⟩)
  | .movGs ax _ => (.done,⟨g.entry,g.entry (selected ax),g.mem⟩)
  | .gsRead Address _ =>
    match g.gs with
    | some base => (.read (read32 g.mem (base + Address)),g)
    | none => (.fault .nullDescriptor,g)
  | .gsWrite Address Data _ =>
    match g.gs with
    | some base => (.done,⟨g.entry,g.gs,write32 g.mem (base + Address) Data⟩)
    | none => (.fault .nullDescriptor,g)
  | .store a bytes => (.done,⟨g.entry,g.gs,store g.mem a bytes⟩)

/-- The code and its reference, taking the same action. -/
abbrev Pair := Thread × Segments

def pairStep (c : Pair) (a : GuestAction) : Pair := ((c.1.act a).2,(c.2.act a).2)

/-- A TlsAlloc that succeeds: any free index but 0. -/
def Allocates (t : Tls) (i : Word) : Prop := FreeIndex t i ∧ i ≠ 0#32

/-- The entry is -1 or one that an earlier call returned, a selector names an
installed entry, and the one TlsAlloc for GS itself succeeds. -/
def Proper (c : Pair) : GuestAction → Prop
  | .setThreadArea udesc answer _ =>
    if read32 c.1.mem udesc = 0xffffffff#32 then
      answer = TLS_OUT_OF_INDEXES ∨ Allocates c.1.tls answer
    else c.2.entry (read32 c.1.mem udesc) ≠ none
  | .movGs ax answer =>
    (∃ e rpl, c.2.entry e ≠ none ∧ rpl.toNat < 8 ∧ ax = (e <<< 3 ||| rpl).setWidth 16) ∧
    (c.1.tls.GsTls = 0#32 → Allocates c.1.tls answer)
  | .gsRead _ answer => c.1.tls.GsTls = 0#32 → Allocates c.1.tls answer
  | .gsWrite _ _ answer => c.1.tls.GsTls = 0#32 → Allocates c.1.tls answer
  | .store _ _ => True

/-- A call that finds no index leaves the guest's struct, the slots and the descriptors alone. -/
def HarmlessFailure (s : Thread) : GuestAction → Prop
  | .setThreadArea udesc answer malloc => Exhausted s.mem udesc answer →
    s.act (.setThreadArea udesc answer malloc) = (.returned (-LINUX_ESRCH),s)
  | _ => True

/-- The action answers as the reference does and leaves the same memory. -/
def FollowsSegments (c : Pair) (a : GuestAction) : Prop :=
  (c.1.act a).1 = (c.2.act a).1 ∧ (c.1.act a).2.mem = (c.2.act a).2.mem ∧ HarmlessFailure c.1 a

/-- The slots hold the entries' descriptors and, apart from them, the one GS was loaded with. -/
structure Represents (t : Tls) (g : Segments) : Prop where
  entries : ∀ e b, g.entry e = some b → e.toNat < TLS_SLOTS ∧ t.allocated e = true ∧
    e ≠ t.GsTls ∧ baseAddr t (t.slot e) = .ok b
  shadow : t.GsTls ≠ 0#32 → t.GsTls.toNat < TLS_SLOTS ∧ t.allocated t.GsTls = true
  loaded : ∀ b, g.gs = some b → t.GsTls ≠ 0#32 ∧ baseAddr t (t.slot t.GsTls) = .ok b
  unloaded : g.gs = none → t.GsTls ≠ 0#32 → t.slot t.GsTls = .null

/-- What keeps the allocated slots and the blocks keeps the representation. -/
theorem Represents.frame {t t' : Tls} {g : Segments} (h : Represents t g)
    (hheap : t'.heap = t.heap) (hshadow : t'.GsTls = t.GsTls)
    (hkept : ∀ i, t.allocated i = true → t'.allocated i = true ∧ t'.slot i = t.slot i) :
    Represents t' g where
  entries := by
    intro e b he
    obtain ⟨hr,ha,hne,hb⟩ := h.entries e b he
    obtain ⟨ha',hs'⟩ := hkept e ha
    exact ⟨hr,ha',hshadow ▸ hne,by rw [hs', baseAddr_congr hheap, hb]⟩
  shadow := by
    rw [hshadow]
    intro hz
    obtain ⟨hr,ha⟩ := h.shadow hz
    exact ⟨hr,(hkept _ ha).1⟩
  loaded := by
    rw [hshadow]
    intro b hg
    obtain ⟨hz,hb⟩ := h.loaded b hg
    rw [(hkept _ (h.shadow hz).2).2, baseAddr_congr hheap]
    exact ⟨hz,hb⟩
  unloaded := by
    rw [hshadow]
    intro hg hz
    rw [(hkept _ (h.shadow hz).2).2]
    exact h.unloaded hg hz

theorem Represents.withMem {t : Tls} {g : Segments} (h : Represents t g) (mem : Mem) :
    Represents t ⟨g.entry,g.gs,mem⟩ :=
  ⟨h.entries,h.shadow,h.loaded,h.unloaded⟩

theorem Represents.take {t : Tls} {g : Segments} (h : Represents t g) {i : Word}
    (hi : FreeIndex t i) : Represents (t.take i) g := by
  refine h.frame ?_ ?_ ?_
  · rfl
  · rfl
  · intro j hj
    have hne := hi.ne hj
    exact ⟨(Tls.take_allocated hne).trans hj,Tls.take_slot hne⟩

/-- The slot of GS is allocated on first use, and is NULL until GS is loaded. -/
theorem Represents.allocateShadow {t : Tls} {g : Segments} (h : Represents t g) {answer : Word}
    (ha : t.GsTls = 0#32 → Allocates t answer) :
    Represents (currentGs t answer).2 g ∧
    (currentGs t answer).1 = (currentGs t answer).2.GsTls ∧
    (currentGs t answer).1 ≠ 0#32 ∧
    ∀ e, g.entry e ≠ none → (currentGs t answer).2.slot e = t.slot e := by
  by_cases hz : t.GsTls = 0#32
  · obtain ⟨hi,hi0⟩ := ha hz
    have htaken := h.take hi
    have hunloaded : g.gs = none := by
      cases hg : g.gs with
      | none => rfl
      | some b => exact absurd hz (h.loaded b hg).1
    rw [currentGs, if_pos hz, tlsAlloc_free hi.ne_out]
    refine ⟨⟨?_,?_,?_,?_⟩,rfl,hi0,?_⟩
    · intro e b he
      obtain ⟨hr,hal,_,hb⟩ := htaken.entries e b he
      exact ⟨hr,hal,hi.ne (h.entries e b he).2.1,hb⟩
    · exact fun _ => ⟨hi.inRange,t.take_allocated_self answer⟩
    · intro b hg
      rw [hunloaded] at hg
      cases hg
    · exact fun _ _ => t.take_slot_self answer
    · intro e he
      obtain ⟨b,hb⟩ := Option.ne_none_iff_exists'.mp he
      exact Tls.take_slot (hi.ne (h.entries e b hb).2.1)
  · rw [currentGs_of_ne_zero hz]
    exact ⟨h,rfl,hz,fun _ _ => rfl⟩

theorem Represents.install {t : Tls} {g : Segments} (h : Represents t g) {e : Word}
    (hr : e.toNat < TLS_SLOTS) (ha : t.allocated e = true) (hne : e ≠ t.GsTls)
    (d : LinuxUserDesc) (mem : Mem) :
    Represents (t.install e d) ⟨Function.update g.entry e (some d.base_addr),g.gs,mem⟩ := by
  have hshadow : (t.install e d).GsTls = t.GsTls := t.install_GsTls e d
  have hslot : ∀ j, j ≠ e → (t.install e d).slot j = t.slot j := fun _ hj => tlsSetValue_ne hj _
  constructor
  · intro j b hj
    rw [hshadow]
    change Function.update g.entry e (some d.base_addr) j = some b at hj
    by_cases hje : j = e
    · subst hje
      rw [Function.update_self, Option.some.injEq] at hj
      have hself : (t.install j d).slot j = .descriptor t.heap.length := tlsSetValue_self hr _
      rw [hself, baseAddr_install, hj]
      exact ⟨hr,by simpa using ha,hne,rfl⟩
    · rw [Function.update_of_ne hje] at hj
      obtain ⟨hr',ha',hne',hb⟩ := h.entries j b hj
      rw [hslot j hje]
      exact ⟨hr',by simpa using ha',hne',baseAddr_grow (t.install_heap e d) hb⟩
  · rw [hshadow]
    simpa using h.shadow
  · rw [hshadow, hslot _ hne.symm]
    intro b hg
    obtain ⟨hz,hb⟩ := h.loaded b hg
    exact ⟨hz,baseAddr_grow (t.install_heap e d) hb⟩
  · rw [hshadow, hslot _ hne.symm]
    exact h.unloaded

/-- mov gs copies the pointer, so GS keeps its descriptor when the entry gets another. -/
theorem Represents.loadGs {t : Tls} {g : Segments} (h : Represents t g) {ax : BitVec 16}
    {answer : Word} (ha : t.GsTls = 0#32 → Allocates t answer) {b : Word}
    (hb : g.entry (selected ax) = some b) (mem : Mem) :
    Represents (gsLoad t ax answer) ⟨g.entry,g.entry (selected ax),mem⟩ := by
  obtain ⟨hcur,hindex,hz,hslots⟩ := h.allocateShadow ha
  obtain ⟨hr,hal,hne,hbase⟩ := hcur.entries _ b hb
  have hread : tlsGetValue t ((ax >>> 3).setWidth 32) = t.slot (selected ax) := if_pos hr
  have hcopied := hslots (selected ax) (by rw [hb]; exact Option.some_ne_none b)
  obtain ⟨hsr,hsal⟩ := hcur.shadow (hindex ▸ hz)
  have hself : ∀ v, (tlsSetValue (currentGs t answer).2 (currentGs t answer).1 v).slot
      (currentGs t answer).2.GsTls = v := by
    intro v
    rw [hindex]
    exact tlsSetValue_self hsr v
  rw [gsLoad, hread, ← hcopied]
  constructor
  · intro j c hj
    obtain ⟨hjr,hja,hjne,hjb⟩ := hcur.entries j c hj
    rw [tlsSetValue_ne (hindex ▸ hjne), baseAddr_congr (tlsSetValue_heap ..)]
    exact ⟨hjr,by simpa using hja,by simpa using hjne,hjb⟩
  · simpa using hcur.shadow
  · intro c hc
    change g.entry (selected ax) = some c at hc
    rw [hb, Option.some.injEq] at hc
    rw [tlsSetValue_GsTls, hself, baseAddr_congr (tlsSetValue_heap ..), ← hc]
    exact ⟨hindex ▸ hz,hbase⟩
  · intro hnone
    change g.entry (selected ax) = none at hnone
    rw [hb] at hnone
    cases hnone

theorem Represents.base {t : Tls} {g : Segments} (h : Represents t g) {b : Word}
    (hb : g.gs = some b) : gsBase t = some b := by
  obtain ⟨hz,hbase⟩ := h.loaded b hb
  have hread : tlsGetValue t t.GsTls = t.slot t.GsTls := if_pos (h.shadow hz).1
  rw [gsBase, if_neg hz, hread, hbase]
  rfl

/-- The address an access means: past the loaded base, or none without one. -/
def Segments.translate (g : Segments) (Address : Word) : Except Fault Addr :=
  match g.gs with
  | some base => .ok (base + Address)
  | none => .error .nullDescriptor

/-- An access goes to the address it means; without a loaded GS it dereferences NULL, on
either path through CurrentGs. -/
theorem Represents.translate {t : Tls} {g : Segments} (h : Represents t g) {answer : Word}
    (ha : t.GsTls = 0#32 → Allocates t answer) (Address : Word) :
    gsTranslateAddress t Address answer = (g.translate Address,(currentGs t answer).2) := by
  cases hg : g.gs with
  | none =>
    obtain ⟨hcur,hindex,hz,_⟩ := h.allocateShadow ha
    have hnull := hcur.unloaded hg (hindex ▸ hz)
    have hread : tlsGetValue (currentGs t answer).2 (currentGs t answer).1 = .null := by
      rw [hindex]
      exact (if_pos (hcur.shadow (hindex ▸ hz)).1).trans hnull
    change (Except.map (· + Address) (baseAddr (currentGs t answer).2
      (tlsGetValue (currentGs t answer).2 (currentGs t answer).1)),(currentGs t answer).2) = _
    rw [hread, Segments.translate, hg]
    rfl
  | some b =>
    have hz := (h.loaded b hg).1
    rw [gsTranslateAddress_of_base (h.base hg), currentGs_of_ne_zero hz, Segments.translate, hg]

/-- The invariant of the pair: one memory, and slots that represent the table. -/
structure Paired (c : Pair) : Prop where
  mem : c.1.mem = c.2.mem
  slots : Represents c.1.tls c.2

/-- The low three bits of a selector do not matter. -/
theorem selected_selector {e : Word} {rpl : Word} (he : e.toNat < 8192) (hrpl : rpl.toNat < 8) :
    selected ((e <<< 3 ||| rpl).setWidth 16) = e := by
  have hor : e.toNat <<< 3 ||| rpl.toNat = e.toNat * 8 + rpl.toNat := by
    rw [← Nat.shiftLeft_add_eq_or_of_lt hrpl, Nat.shiftLeft_eq]
  have hmod : e.toNat <<< 3 % 2^32 = e.toNat <<< 3 :=
    Nat.mod_eq_of_lt (by rw [Nat.shiftLeft_eq]; omega)
  apply BitVec.eq_of_toNat_eq
  simp only [selected, BitVec.toNat_setWidth, BitVec.toNat_ushiftRight, BitVec.toNat_or,
    BitVec.toNat_shiftLeft, Nat.shiftRight_eq_div_pow]
  rw [hmod, hor]
  omega

/-- The number a legal call installs under is its own: taken from TlsAlloc, and not the GS slot. -/
private theorem install_index {t : Tls} {g : Segments} (h : Represents t g) {udesc : Addr}
    {answer : Word}
    (hp : if read32 g.mem udesc = 0xffffffff#32 then
        answer = TLS_OUT_OF_INDEXES ∨ Allocates t answer
      else g.entry (read32 g.mem udesc) ≠ none)
    (hx : ¬ Exhausted g.mem udesc answer) :
    Represents (tlsFor t g.mem udesc answer) g ∧
    (entryOf g.mem udesc answer).toNat < TLS_SLOTS ∧
    (tlsFor t g.mem udesc answer).allocated (entryOf g.mem udesc answer) = true ∧
    entryOf g.mem udesc answer ≠ (tlsFor t g.mem udesc answer).GsTls := by
  by_cases hn : read32 g.mem udesc = 0xffffffff#32
  · rw [if_pos hn] at hp
    obtain ⟨hi,hi0⟩ : Allocates t answer := hp.resolve_left fun ha => hx ⟨hn,ha⟩
    rw [tlsFor, entryOf, if_pos hn, if_pos hn]
    refine ⟨h.take hi,hi.inRange,t.take_allocated_self answer,?_⟩
    change answer ≠ t.GsTls
    by_cases hz : t.GsTls = 0#32
    · rwa [hz]
    · exact (hi.ne (h.shadow hz).2).symm
  · rw [if_neg hn] at hp
    obtain ⟨b,hb⟩ := Option.ne_none_iff_exists'.mp hp
    obtain ⟨hr,ha,hne,_⟩ := h.entries _ b hb
    rw [tlsFor, entryOf, if_neg hn, if_neg hn]
    exact ⟨h,hr,ha,hne⟩

/-- The number written back leaves the base as it was. -/
theorem base_after_number (m : Mem) (udesc : Addr) (e : Word) :
    (readUserDesc (write32 m udesc e) udesc).base_addr = read32 m (udesc + 4#32) := by
  apply read32_write32_apart
  bv_omega

private theorem paired_setThreadArea {t : Tls} {g : Segments} (h : Represents t g)
    {udesc : Addr} {answer : Word} {malloc : Bool}
    (hp : Proper (⟨t,g.mem⟩,g) (.setThreadArea udesc answer malloc)) :
    FollowsSegments (⟨t,g.mem⟩,g) (.setThreadArea udesc answer malloc) ∧
      Paired (pairStep (⟨t,g.mem⟩,g) (.setThreadArea udesc answer malloc)) := by
  have hrun := sysSetThreadArea_eq t g.mem udesc answer malloc
  by_cases hx : Exhausted g.mem udesc answer
  · rw [if_pos hx] at hrun
    simp only [FollowsSegments, HarmlessFailure, pairStep, Thread.act, Segments.act, hrun, if_pos hx]
    exact ⟨⟨trivial,trivial,fun _ => trivial⟩,rfl,h⟩
  · obtain ⟨hfor,hr,hal,hne⟩ := install_index h hp hx
    rw [if_neg hx] at hrun
    have hnot : HarmlessFailure ⟨t,g.mem⟩ (.setThreadArea udesc answer malloc) :=
      fun hex => absurd hex hx
    cases malloc with
    | false =>
      simp only [FollowsSegments, hnot, pairStep, Thread.act, Segments.act, hrun, if_neg hx,
        Bool.false_eq_true, if_false]
      exact ⟨⟨trivial,trivial,trivial⟩,rfl,hfor.withMem _⟩
    | true =>
      have hinstalled := hfor.install hr hal hne
        (readUserDesc (write32 g.mem udesc (entryOf g.mem udesc answer)) udesc)
        (write32 g.mem udesc (entryOf g.mem udesc answer))
      rw [base_after_number] at hinstalled
      simp only [FollowsSegments, hnot, pairStep, Thread.act, Segments.act, hrun, if_neg hx,
        if_true]
      exact ⟨⟨trivial,trivial,trivial⟩,rfl,hinstalled⟩

/-- One action: the code follows its reference and the slots still represent the table. -/
theorem paired_step {c : Pair} {a : GuestAction} (h : Paired c) (hp : Proper c a) :
    FollowsSegments c a ∧ Paired (pairStep c a) := by
  obtain ⟨⟨t,m⟩,g⟩ := c
  obtain ⟨hmem,hslots⟩ := h
  change m = g.mem at hmem
  subst hmem
  change Represents t g at hslots
  cases a with
  | setThreadArea udesc answer malloc => exact paired_setThreadArea hslots hp
  | movGs ax answer =>
    obtain ⟨⟨e,rpl,he,hrpl,rfl⟩,ha⟩ := hp
    obtain ⟨b,hb⟩ := Option.ne_none_iff_exists'.mp he
    have hr : e.toNat < 8192 := Nat.lt_trans (hslots.entries e b hb).1 (by decide)
    have hsel : selected ((e <<< 3 ||| rpl).setWidth 16) = e := selected_selector hr hrpl
    exact ⟨⟨rfl,rfl,trivial⟩,rfl,hslots.loadGs ha (hsel ▸ hb) _⟩
  | gsRead Address answer =>
    have hcur := (hslots.allocateShadow hp).1
    simp only [FollowsSegments, HarmlessFailure, pairStep, Thread.act, Segments.act, gsReadDword,
      hslots.translate hp Address, Segments.translate]
    cases hg : g.gs with
    | none => exact ⟨⟨rfl,rfl,trivial⟩,rfl,hcur⟩
    | some b => exact ⟨⟨rfl,rfl,trivial⟩,rfl,hcur⟩
  | gsWrite Address Data answer =>
    have hcur := (hslots.allocateShadow hp).1
    simp only [FollowsSegments, HarmlessFailure, pairStep, Thread.act, Segments.act, gsWriteDWord,
      hslots.translate hp Address, Segments.translate]
    cases hg : g.gs with
    | none => exact ⟨⟨rfl,rfl,trivial⟩,rfl,hcur⟩
    | some b =>
      have hwritten := hcur.withMem (write32 g.mem (b + Address) Data)
      rw [hg] at hwritten
      exact ⟨⟨rfl,rfl,trivial⟩,rfl,hwritten⟩
  | store a bytes => exact ⟨⟨rfl,rfl,trivial⟩,rfl,hslots.withMem _⟩

def noSegments (mem : Mem) : Segments := ⟨fun _ => none,none,mem⟩

theorem represents_start {t : Tls} (h : AtStart t) (mem : Mem) : Represents t (noSegments mem) := by
  refine ⟨?_,fun hz => absurd h.shadow hz,?_,fun _ hz => absurd h.shadow hz⟩
  · intro e b he
    cases he
  · intro b hb
    cases hb

/-- Over any run of proper actions every access through GS goes to the base that
GS was loaded with, as the table of entries had it then. -/
theorem thread_pointer_follows_segments (t : Tls) (mem : Mem) (hstart : AtStart t)
    (actions : List GuestAction)
    (hp : EachStep pairStep Proper (⟨t,mem⟩,noSegments mem) actions) :
    EachStep pairStep FollowsSegments (⟨t,mem⟩,noSegments mem) actions :=
  each_of_step (I := Paired) (fun _ _ h hp => (paired_step h hp).2)
    (fun _ _ h hp => (paired_step h hp).1) ⟨rfl,represents_start hstart mem⟩ hp

section sample

/-- A user_desc with entry -1 and base 20000h at 1000h. -/
def setupMem : Mem := store (fun _ => 0#8) 0x1000#32
  [0xff#8,0xff#8,0xff#8,0xff#8,0x00#8,0x00#8,0x02#8,0x00#8]

/-- As __libc_setup_tls does it: install, load, and reach below the base. -/
def setup : List GuestAction := [.setThreadArea 0x1000#32 5#32 true,.movGs 0x2b#16 6#32,
  .gsWrite 0xffffffe8#32 7#32 0#32,.gsRead 0xffffffe8#32 0#32]

theorem setup_follows_segments :
    EachStep pairStep FollowsSegments (⟨setupTls,setupMem⟩,noSegments setupMem) setup := by
  refine thread_pointer_follows_segments setupTls setupMem setupTls_atStart setup ⟨?_,?_,?_,?_,trivial⟩
  · rw [Proper, if_pos (by decide)]
    exact .inr ⟨⟨by decide,by decide⟩,by decide⟩
  · exact ⟨⟨5#32,3#32,by decide,by decide,by decide⟩,fun _ => ⟨⟨by decide,by decide⟩,by decide⟩⟩
  · exact fun h => absurd h (by decide)
  · exact fun h => absurd h (by decide)

end sample
end Line2.Lnexec
