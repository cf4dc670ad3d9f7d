import Line2.Lnexec.ScatteredInput
import Line2.Lnexec.SysWrite

/-! The vectored calls against loops of plain ones. The loops are as careless: they go on
after a short transfer and drop the progress made when a call fails. -/
namespace Line2.Lnexec
open Library.Memory

/-- A sys_writev of one entry for each, up to the first that fails. -/
def writeEach (answers : Nat → WriteAnswer) (s : Process) (fd : Word) (iov : Addr) :
    Nat → Nat → Word → Int × List Byte
  | 0, _, total => (total.toInt,[])
  | n + 1, i, total =>
    let r := sysWritev (fun _ => answers i) s fd (iov + BitVec.ofNat 32 (8 * i)) 1#32
    if r.1 < 0 then r
    else
      let rest := writeEach answers s fd iov n (i + 1) (total + BitVec.ofInt 32 r.1)
      (rest.1,r.2 ++ rest.2)

/-- Buffers that a signed int can count. -/
def Short (iov : List IoVec) : Prop := ∀ v ∈ iov, v.iovLen.toNat < 0x80000000

/-- A count that a signed int holds comes out of it again. -/
private theorem counted {k : Nat} (hk : k < 0x80000000) :
    ¬ (BitVec.ofNat 32 k).toInt < 0 ∧
    BitVec.ofInt 32 (BitVec.ofNat 32 k).toInt = BitVec.ofNat 32 k := by
  constructor
  · rw [BitVec.toInt_eq_toNat_cond, BitVec.toNat_ofNat]
    split <;> omega
  · exact BitVec.ofInt_toInt ..

/-- The first entry of an array further on. -/
theorem iovEntry_offset (m : Mem) (iov : Addr) (i : Nat) :
    iovEntry m (iov + BitVec.ofNat 32 (8 * i)) 0 = iovEntry m iov i := by
  simp [iovEntry]

theorem writevLoop_each (answers : Nat → WriteAnswer) {s : Process} {fd : Word}
    (ho : translateFile s fd ≠ 0#32) (iov : Addr) (n i : Nat)
    (hl : Short (iovEntries s.mem iov i n)) (total : Word) :
    writevLoop s.mem answers iov n i total = writeEach answers s fd iov n i total := by
  induction n generalizing i total with
  | zero => rfl
  | succ n ih =>
    rw [iovEntries_succ] at hl
    obtain ⟨hv,hrest⟩ := List.forall_mem_cons.mp hl
    have hone : (1#32).toNat = 1 := rfl
    cases ha : answers i with
    | fails =>
      simp only [writeEach, sysWritev, if_neg ho, hone, writevLoop, ha, ntWriteFile]
      rfl
    | takes k =>
      let v := iovEntry s.mem iov i
      have hk : ((load s.mem v.iovBase v.iovLen.toNat).take k).length < 0x80000000 := by
        rw [List.length_take, load_length]
        exact Nat.lt_of_le_of_lt (Nat.min_le_right ..) hv
      obtain ⟨hpos,hback⟩ := counted hk
      have hloop := ih (i + 1) hrest
      simp only [v] at hpos hback
      simp only [writeEach, sysWritev, if_neg ho, hone, writevLoop, iovEntry_offset, ha,
        ntWriteFile, BitVec.zero_add, if_neg hpos, hback, List.append_nil, hloop]

/-- The same for sys_writev: it emits and reports what writing entry by entry would. -/
theorem writev_is_writes (answers : Nat → WriteAnswer) (s : Process) (fd : Word) (iov : Addr)
    (iovcnt : Word) (hne : 0 < iovcnt.toNat ∨ translateFile s fd ≠ 0#32)
    (hl : Short (iovEntries s.mem iov 0 iovcnt.toNat)) :
    sysWritev answers s fd iov iovcnt = writeEach answers s fd iov iovcnt.toNat 0 0#32 := by
  by_cases ho : translateFile s fd = 0#32
  · obtain ⟨n,hn⟩ := Nat.exists_eq_succ_of_ne_zero
      (Nat.ne_of_gt (hne.resolve_right fun h => h ho))
    rw [hn]
    simp only [sysWritev, if_pos ho, writeEach]
    rfl
  · rw [sysWritev, if_neg ho]
    exact writevLoop_each answers ho iov iovcnt.toNat 0 hl 0#32

section sample

/-- Two buffers, of two bytes and of three, in an array at 2000h. -/
def sampleArray : Mem :=
  storeAll (fun _ => 0#8) [(0x2000#32,bytes32 0x3000#32),(0x2004#32,bytes32 2#32),
    (0x2008#32,bytes32 0x4000#32),(0x200c#32,bytes32 3#32)]

def arrayProcess : Process := ⟨⟨1#32,2#32,3#32⟩,fun _ => [0x61#8,0x62#8,0x63#8],sampleArray⟩

theorem sampleArray_writes :
    sysWritev (fun _ => .takes 2) arrayProcess 1#32 0x2000#32 2#32 =
      writeEach (fun _ => .takes 2) arrayProcess 1#32 0x2000#32 2 0 0#32 := by
  have hbuffers : iovEntries arrayProcess.mem 0x2000#32 0 2 =
      [⟨0x3000#32,2#32⟩,⟨0x4000#32,3#32⟩] := by decide
  refine writev_is_writes _ arrayProcess 1#32 0x2000#32 2#32 (.inl (by decide)) ?_
  change Short (iovEntries arrayProcess.mem 0x2000#32 0 2)
  rw [hbuffers]
  exact List.forall_mem_cons.mpr ⟨by decide,List.forall_mem_singleton.mpr (by decide)⟩

end sample
end Line2.Lnexec
