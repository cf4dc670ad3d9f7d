import Line2.Lnexec.SyscallTable
import Line2.Lnexec.ThreadPointer
import Line2.Lnexec.TlsIsolation

/-! set_thread_area and GS as Linux has them, and that the TLS slots stand for them: the
slots that hold a descriptor, but for the one of GS, are exactly the installed entries. -/
namespace Line2.Lnexec
open Library.Memory

/-- The base under each entry, and the one that GS was last loaded with. -/
structure Selectors where
  entry : Word → Option Word
  gs : Option Word

/-- What set_thread_area does on Linux, where `h.tlsIndex` is the entry the kernel picks. -/
def linuxArea : AreaService Selectors := fun h g udesc m =>
  if Exhausted m udesc h.tlsIndex then ((BitVec.ofInt 32 (-LINUX_ESRCH),g),m)
  else
    let e := entryOf m udesc h.tlsIndex
    let base := read32 m (udesc + 4#32)
    ((0#32,{ g with entry := Function.update g.entry e (some base) }),write32 m udesc e)

/-- A slot that a selector may name. -/
structure GuestEntry (t : Tls) (e : Word) : Prop where
  inRange : e.toNat < TLS_SLOTS
  descriptor : ∃ k, t.slot e = .descriptor k
  guest : t.GsTls ≠ 0#32 → e ≠ t.GsTls

/-- The entry is -1 and TlsAlloc keeps to its contract, or it is installed. -/
def ProperArea (t : Tls) (m : Mem) (udesc : Addr) (answer : Word) : Prop :=
  if read32 m udesc = 0xffffffff#32 then answer = TLS_OUT_OF_INDEXES ∨ Allocates t answer
  else GuestEntry t (read32 m udesc)

/-- The slots stand for the selectors. -/
structure StandsFor (t : Tls) (g : Selectors) : Prop where
  represents : ∀ m, Represents t ⟨g.entry,g.gs,m⟩
  known : ∀ e, GuestEntry t e → g.entry e ≠ none

theorem AtStart.standsFor {t : Tls} (h : AtStart t) : StandsFor t ⟨fun _ => none,none⟩ where
  represents := by
    intro m
    refine ⟨fun e b he => ?_,fun hz => absurd h.shadow hz,fun b hb => ?_,
      fun _ hz => absurd h.shadow hz⟩
    · cases he
    · cases hb
  known := fun e he => absurd he.descriptor.choose_spec (h.host e _)

/-- The base behind GS is the one that was loaded. -/
theorem StandsFor.gsBase {t : Tls} {g : Selectors} (h : StandsFor t g) {b : Word}
    (hb : gsBase t = some b) : g.gs = some b := by
  have hrep := h.represents fun _ => 0#8
  cases hg : g.gs with
  | none =>
    exfalso
    unfold Lnexec.gsBase at hb
    split at hb
    · cases hb
    · rename_i hz
      have hread : tlsGetValue t t.GsTls = t.slot t.GsTls := if_pos (hrep.shadow hz).1
      rw [hread, hrep.unloaded hg hz] at hb
      cases hb
  | some b' =>
    have hb' := hrep.base hg
    rw [hb, Option.some.injEq] at hb'
    rw [hb']

theorem StandsFor.area {t : Tls} {g : Selectors} (h : StandsFor t g) (answers : HostAnswers)
    {udesc : Addr} {m : Mem} (hp : ProperArea t m udesc answers.tlsIndex) :
    (tlsArea answers t udesc m).1.1 = (linuxArea answers g udesc m).1.1 ∧
    (tlsArea answers t udesc m).2 = (linuxArea answers g udesc m).2 ∧
    StandsFor (tlsArea answers t udesc m).1.2 (linuxArea answers g udesc m).1.2 := by
  have hproper : Proper (⟨t,m⟩,⟨g.entry,g.gs,m⟩) (.setThreadArea udesc answers.tlsIndex true) := by
    unfold ProperArea at hp
    simp only [Proper]
    split
    · rename_i hn
      rwa [if_pos hn] at hp
    · rename_i hn
      rw [if_neg hn] at hp
      exact h.known _ hp
  obtain ⟨_,_,hslots⟩ := paired_step ⟨rfl,h.represents m⟩ hproper
  simp only [pairStep, Thread.act, Segments.act, sysSetThreadArea_eq] at hslots
  simp only [tlsArea, linuxArea, sysSetThreadArea_eq]
  by_cases hx : Exhausted m udesc answers.tlsIndex
  · simp only [if_pos hx]
    exact ⟨rfl,trivial,h⟩
  · simp only [if_neg hx, if_true] at hslots ⊢
    refine ⟨rfl,trivial,fun m' => hslots.withMem m',?_⟩
    intro e he
    change Function.update g.entry (entryOf m udesc answers.tlsIndex) _ e ≠ none
    by_cases hee : e = entryOf m udesc answers.tlsIndex
    · rw [hee, Function.update_self]
      exact Option.some_ne_none _
    · rw [Function.update_of_ne hee]
      obtain ⟨hr,⟨k,hk⟩,hguest⟩ := he
      refine h.known e ⟨hr,⟨k,?_⟩,by simpa using hguest⟩
      have hother : ((tlsFor t m udesc answers.tlsIndex).install
          (entryOf m udesc answers.tlsIndex) (readUserDesc (write32 m udesc
            (entryOf m udesc answers.tlsIndex)) udesc)).slot e =
          (tlsFor t m udesc answers.tlsIndex).slot e := tlsSetValue_ne hee _
      rw [← tlsFor_keeps hee, ← hother, hk]

/-- A slot that is not the one of GS keeps what it holds when GS gets its slot. -/
private theorem currentGs_installed {t : Tls} {answer e : Word}
    (he : GuestEntry (currentGs t answer).2 e) (hz : (currentGs t answer).2.GsTls ≠ 0#32)
    (ha : t.GsTls = 0#32 → Allocates t answer) : GuestEntry t e := by
  by_cases h0 : t.GsTls = 0#32
  · have hnew : (currentGs t answer).2 = { t.take answer with GsTls := answer } := by
      rw [currentGs, if_pos h0, tlsAlloc_free (ha h0).1.ne_out]
    rw [hnew] at he hz
    have hne : e ≠ answer := he.guest hz
    obtain ⟨k,hk⟩ := he.descriptor
    have hslot : (t.take answer).slot e = .descriptor k := hk
    rw [Tls.take_slot hne] at hslot
    exact ⟨he.inRange,⟨k,hslot⟩,fun hne0 => absurd h0 hne0⟩
  · rwa [currentGs_of_ne_zero h0] at he

/-- mov gs with a selector of an installed entry. -/
theorem StandsFor.load {t : Tls} {g : Selectors} (h : StandsFor t g) {ax : BitVec 16}
    {answer : Word} (hi : GuestEntry t (selected ax)) (ha : t.GsTls = 0#32 → Allocates t answer) :
    ∃ b, g.entry (selected ax) = some b ∧ StandsFor (gsLoad t ax answer) ⟨g.entry,some b⟩ := by
  obtain ⟨b,hb⟩ := Option.ne_none_iff_exists'.mp (h.known _ hi)
  refine ⟨b,hb,fun m => ?_,?_⟩
  · have hload := (h.represents m).loadGs ha hb m
    change Represents _ ⟨g.entry,g.entry (selected ax),m⟩ at hload
    rwa [hb] at hload
  · intro e he
    obtain ⟨_,hindex,hz,_⟩ := (h.represents fun _ => 0#8).allocateShadow ha
    apply h.known e
    rw [hindex] at hz
    refine currentGs_installed ?_ hz ha
    obtain ⟨hr,⟨k,hk⟩,hguest⟩ := he
    rw [gsLoad, tlsSetValue_GsTls] at hguest
    have hne := hguest hz
    rw [gsLoad, tlsSetValue_ne (by rwa [hindex])] at hk
    exact ⟨hr,⟨k,hk⟩,hguest⟩

end Line2.Lnexec
