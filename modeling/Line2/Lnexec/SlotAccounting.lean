import Line2.Lnexec.SystemRuns
import Mathlib.Data.List.Nodup

/-! The TLS indexes over a run. set_thread_area takes one for each new entry, the first load
of GS takes one for its shadow, and nothing gives any back. -/
namespace Line2.Lnexec
open Library.Memory Library.Runs Library.Simulation Ia32

/-- The index that TlsAlloc gives out in a step. -/
def slotsTaken (c : Machine) : MachineAction → List Word
  | .native _ => []
  | .fault h _ =>
    if AtInt80 c.guest then
      if trapFunction c.guest = .sysSetThreadArea ∧
          read32 c.guest.mem c.guest.cpu.ebx = 0xffffffff#32 ∧ h.tlsIndex ≠ TLS_OUT_OF_INDEXES then
        [h.tlsIndex]
      else []
    else if c.world.thread.GsTls = 0#32 then [h.tlsIndex] else []

/-- The indexes that nobody has. -/
def Tls.freeIndexes (t : Tls) : List Nat :=
  (List.range TLS_SLOTS).filter fun n => !t.allocated (BitVec.ofNat 32 n)

/-- What a step does to the indexes: it takes free ones. -/
structure Takes (t t' : Tls) (indexes : List Word) : Prop where
  once : indexes.Nodup
  free : ∀ i ∈ indexes, FreeIndex t i
  allocated : ∀ i, t'.allocated i = true ↔ t.allocated i = true ∨ i ∈ indexes

theorem Takes.nothing {t t' : Tls} (h : t'.allocated = t.allocated) : Takes t t' [] where
  once := List.nodup_nil
  free := List.forall_mem_nil _
  allocated := fun i => by rw [h, or_iff_left List.not_mem_nil]

theorem Takes.one {t t' : Tls} {i : Word} (hi : FreeIndex t i)
    (h : t'.allocated = (t.take i).allocated) : Takes t t' [i] where
  once := List.pairwise_singleton ..
  free := List.forall_mem_singleton.mpr hi
  allocated := by
    intro j
    rw [h, List.mem_singleton]
    by_cases hj : j = i
    · rw [hj, Tls.take_allocated_self]
      exact iff_of_true rfl (.inr rfl)
    · rw [Tls.take_allocated hj, or_iff_left hj]

theorem takes_area (h : HostAnswers) {t : Tls} {udesc : Addr} {m : Mem}
    (hp : ProperArea t m udesc h.tlsIndex) : Takes t (tlsArea h t udesc m).1.2
      (if read32 m udesc = 0xffffffff#32 ∧ h.tlsIndex ≠ TLS_OUT_OF_INDEXES then [h.tlsIndex]
      else []) := by
  simp only [tlsArea, sysSetThreadArea_eq]
  by_cases hn : read32 m udesc = 0xffffffff#32
  · rw [ProperArea, if_pos hn] at hp
    by_cases ho : h.tlsIndex = TLS_OUT_OF_INDEXES
    · simp only [Exhausted, hn, ho, ne_eq, not_true_eq_false, and_self, and_false, if_true,
        if_false]
      exact .nothing rfl
    · have hfree := (hp.resolve_left ho).1
      simp only [Exhausted, hn, ho, ne_eq, not_false_eq_true, and_self, and_false, if_true,
        if_false]
      refine .one hfree ?_
      rw [Tls.install_allocated, tlsFor, if_pos hn]
  · simp only [Exhausted, hn, false_and, if_true, if_false]
    refine .nothing ?_
    rw [Tls.install_allocated, tlsFor, if_neg hn]

theorem takes_load {t : Tls} (ax : BitVec 16) {answer : Word}
    (ha : t.GsTls = 0#32 → Allocates t answer) :
    Takes t (gsLoad t ax answer) (if t.GsTls = 0#32 then [answer] else []) := by
  unfold gsLoad
  by_cases hz : t.GsTls = 0#32
  · have hfree := (ha hz).1
    rw [currentGs, if_pos hz, if_pos hz, tlsAlloc_free hfree.ne_out]
    refine .one hfree ?_
    rw [tlsSetValue_allocated]
  · rw [currentGs_of_ne_zero hz, if_neg hz]
    exact .nothing (tlsSetValue_allocated ..)

section runs
variable {host : HostCode} {reserve : Nat}

theorem takes_step {c : Machine} {a : MachineAction} (hd : Disciplined host reserve c a) :
    Takes c.world.thread (machineStep host c a).world.thread (slotsTaken c a) := by
  have hout := disciplined_outcome hd
  generalize machineStep host c a = c' at hout
  cases hout with
  | native w s code => exact .nothing rfl
  | @syscall w s s' h k hat hs hp hreturn =>
    rw [SysFunction.serve_thread, slotsTaken, if_pos hat]
    by_cases hf : trapFunction s = .sysSetThreadArea
    · simp only [hf, true_and, if_true]
      exact takes_area h (hp hf)
    · simp only [hf, false_and, if_false]
      exact .nothing rfl
  | loadGs hat hmov hi ha =>
    rw [slotsTaken, if_neg hat]
    exact takes_load _ ha
  | @throughGs w s s' s'' h k b d hat hb =>
    have hz : w.thread.GsTls ≠ 0#32 := by
      intro hz
      rw [gsBase, if_pos hz] at hb
      cases hb
    rw [slotsTaken, if_neg hat, if_neg hz]
    exact .nothing rfl

/-- Over a whole run no index is taken twice, and none that was in use before; those in use
at the end are these and the ones taken. So no more are taken than were free. -/
theorem slots_accounted (c : Machine) (actions : List MachineAction)
    (hd : EachStep (machineStep host) (Disciplined host reserve) c actions) :
    (collected (machineStep host) slotsTaken c actions).Nodup ∧
    (∀ i ∈ collected (machineStep host) slotsTaken c actions,
      c.world.thread.allocated i = false) ∧
    (∀ i, (actions.foldl (machineStep host) c).world.thread.allocated i = true ↔
      c.world.thread.allocated i = true ∨ i ∈ collected (machineStep host) slotsTaken c actions) ∧
    (collected (machineStep host) slotsTaken c actions).length ≤
      c.world.thread.freeIndexes.length := by
  obtain ⟨hnodup,hfresh,hfinal⟩ := collected_once
    (A := fun (c : Machine) i => c.world.thread.allocated i = true)
    (fun c a i h => (takes_step h).allocated i)
    (fun c a i h hi hin => by
      have hfree := ((takes_step h).free i hi).free
      rw [hfree] at hin
      cases hin)
    (fun c a h => (takes_step h).once) hd
  have hfree : ∀ i ∈ collected (machineStep host) slotsTaken c actions,
      c.world.thread.allocated i = false := fun i hi => by simpa using hfresh i hi
  have hrange : ∀ i ∈ collected (machineStep host) slotsTaken c actions, i.toNat < TLS_SLOTS :=
    collected_forall (fun c a h i hi => ((takes_step h).free i hi).inRange) hd
  refine ⟨hnodup,hfree,hfinal,?_⟩
  have hsub : (collected (machineStep host) slotsTaken c actions).map BitVec.toNat ⊆
      c.world.thread.freeIndexes := by
    intro n hn
    obtain ⟨i,hi,rfl⟩ := List.mem_map.mp hn
    refine List.mem_filter.mpr ⟨List.mem_range.mpr (hrange i hi),?_⟩
    rw [BitVec.ofNat_toNat, BitVec.setWidth_eq, hfree i hi]
    rfl
  have hmap := hnodup.map (f := BitVec.toNat) fun _ _ => BitVec.eq_of_toNat_eq
  have hlen := hmap.length_le_of_subset hsub
  rwa [List.length_map] at hlen

end runs

section sample

theorem sampleRun_slots :
    (let c : Machine := ⟨true,⟨sampleKernel,setupTls⟩,sampleTrap⟩
    let indexes := collected (machineStep sampleHost) slotsTaken c sampleRun
    indexes.Nodup ∧ (∀ i ∈ indexes, setupTls.allocated i = false) ∧
    (∀ i, (sampleRun.foldl (machineStep sampleHost) c).world.thread.allocated i = true ↔
      setupTls.allocated i = true ∨ i ∈ indexes) ∧
    indexes.length ≤ setupTls.freeIndexes.length) :=
  slots_accounted ⟨true,⟨sampleKernel,setupTls⟩,sampleTrap⟩ sampleRun
    (sampleRun_disciplined sampleKernel)

end sample
end Line2.Lnexec
