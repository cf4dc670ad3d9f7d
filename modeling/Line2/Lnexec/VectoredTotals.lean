import Line2.Lnexec.ScatteredInput
import Line2.Lnexec.SysWrite

/-! The byte totals of vectored calls whose transfers are all full. The loops add the
lengths up in a signed 32-bit counter and look at no sum before they begin. -/
namespace Line2.Lnexec
open Library.Memory

/-- The sum of the buffers' lengths, as an unbounded integer. -/
def totalLength : List IoVec → Nat
  | [] => 0
  | v :: iov => v.iovLen.toNat + totalLength iov

/-- Each NtReadFile from buffer `i` on fills its buffer. -/
def ReadsFull (answers : Nat → List Byte → ReadAnswer) : List IoVec → Nat → List Byte → Prop
  | [], _, _ => True
  | v :: iov, i, file =>
    match answers i file with
    | .delivers n =>
      answered file v.iovLen n = v.iovLen.toNat ∧
        ReadsFull answers iov (i + 1) (file.drop v.iovLen.toNat)
    | .fails => False

/-- Each NtWriteFile from buffer `i` on takes its buffer whole. -/
def WritesFull (answers : Nat → WriteAnswer) : List IoVec → Nat → Prop
  | [], _ => True
  | v :: iov, i =>
    match answers i with
    | .takes n => v.iovLen.toNat ≤ n ∧ WritesFull answers iov (i + 1)
    | .fails => False

/-- The result is the sum and so much was transferred, or it is an errno for a sum past the
largest int, and nothing was. -/
def TotalExact (result : Int) (transferred : List Byte) (sum : Nat) : Prop :=
  result = sum ∧ transferred.length = sum ∨ result < 0 ∧ transferred = [] ∧ 2^31 - 1 < sum

/-- A 32-bit total is the number it counts as long as that fits a signed int. -/
theorem toInt_ofNat_iff (n : Nat) : (BitVec.ofNat 32 n).toInt = n ↔ n < 2^31 := by
  rw [BitVec.toInt_eq_toNat_cond, BitVec.toNat_ofNat]
  constructor
  · intro h
    split at h <;> omega
  · intro hn
    rw [if_pos (by omega), Nat.mod_eq_of_lt (by omega)]

/-- What a call makes of `n` bytes that it transferred is exact iff they are the sum and fit. -/
theorem totalExact_iff {transferred : List Byte} {n : Nat} (h : transferred.length = n)
    (sum : Nat) : TotalExact (BitVec.ofNat 32 n).toInt transferred sum ↔ sum < 2^31 ∧ n = sum := by
  constructor
  · rintro (⟨heq,hlen⟩ | ⟨hneg,hnil,_⟩)
    · obtain rfl := h.symm.trans hlen
      exact ⟨(toInt_ofNat_iff _).mp heq,rfl⟩
    · rw [hnil, List.length_nil] at h
      rw [← h] at hneg
      exact absurd hneg (by decide)
  · rintro ⟨hsum,rfl⟩
    exact .inl ⟨(toInt_ofNat_iff n).mpr hsum,h⟩

/-- Full reads: no failure, and the sum of the lengths is what was received. -/
theorem ReadsFull.spec {answers : Nat → List Byte → ReadAnswer} {iov : List IoVec} {i : Nat}
    {file : List Byte} (h : ReadsFull answers iov i file) :
    readRefused answers iov i file = false ∧ scattered answers iov i file = totalLength iov ∧
    (received answers iov i file).flatten.length = totalLength iov := by
  induction iov generalizing i file with
  | nil => exact ⟨rfl,rfl,rfl⟩
  | cons v iov ih =>
    rw [ReadsFull] at h
    cases ha : answers i file with
    | delivers n =>
      simp only [ha] at h
      obtain ⟨hfull,hrest⟩ := h
      obtain ⟨hrefused,hscattered,hreceived⟩ := ih hrest
      have hle := answered_le file v.iovLen n
      simp only [readRefused, scattered, received, ha, hfull, hrefused, hscattered, totalLength,
        List.flatten_cons, List.length_append, hreceived, List.length_take]
      refine ⟨trivial,trivial,?_⟩
      omega
    | fails =>
      rw [ha] at h
      cases h

/-- Full writes, the same. -/
theorem WritesFull.spec {answers : Nat → WriteAnswer} {iov : List IoVec} {i : Nat}
    (h : WritesFull answers iov i) :
    refused answers iov i = false ∧ accepted answers iov i = totalLength iov := by
  induction iov generalizing i with
  | nil => exact ⟨rfl,rfl⟩
  | cons v iov ih =>
    rw [WritesFull] at h
    cases ha : answers i with
    | takes n =>
      simp only [ha] at h
      obtain ⟨hfull,hrest⟩ := h
      obtain ⟨hrefused,haccepted⟩ := ih hrest
      simp only [refused, accepted, ha, hrefused, totalLength, haccepted, Nat.min_eq_right hfull]
      exact ⟨trivial,trivial⟩
    | fails =>
      rw [ha] at h
      cases h

/-- sys_readv's file is open, and each of its reads is full. -/
def ReadInFull (reads : Nat → List Byte → ReadAnswer) (s : Process) (fd : Word) (iov : Addr)
    (iovcnt : Word) : Prop :=
  translateFile s fd ≠ 0#32 ∧
  ReadsFull reads (readBuffers reads s fd iov iovcnt) 0 (s.files (translateFile s fd))

/-- sys_writev's, and each of its writes. -/
def WrittenInFull (writes : Nat → WriteAnswer) (s : Process) (fd : Word) (iov : Addr)
    (iovcnt : Word) : Prop :=
  translateFile s fd ≠ 0#32 ∧ WritesFull writes (iovEntries s.mem iov 0 iovcnt.toNat) 0

section
variable {reads : Nat → List Byte → ReadAnswer} {writes : Nat → WriteAnswer} {s : Process}
  {fd : Word} {iov : Addr} {iovcnt : Word}

theorem readv_total_iff (h : ReadInFull reads s fd iov iovcnt) (sum : Nat) :
    TotalExact (sysReadv reads s fd iov iovcnt).result
      (sysReadv reads s fd iov iovcnt).received.flatten sum ↔
    sum < 2^31 ∧ totalLength (readBuffers reads s fd iov iovcnt) = sum := by
  obtain ⟨hopen,hfull⟩ := h
  obtain ⟨hrefused,hscattered,hreceived⟩ := hfull.spec
  rw [sysReadv_counts hopen hrefused]
  simp only [afterReads, hscattered]
  exact totalExact_iff hreceived sum

theorem writev_total_iff (h : WrittenInFull writes s fd iov iovcnt) (sum : Nat) :
    TotalExact (sysWritev writes s fd iov iovcnt).1 (sysWritev writes s fd iov iovcnt).2 sum ↔
    sum < 2^31 ∧ totalLength (iovEntries s.mem iov 0 iovcnt.toNat) = sum := by
  obtain ⟨hopen,hfull⟩ := h
  obtain ⟨hrefused,haccepted⟩ := hfull.spec
  rw [sysWritev_open hopen]
  simp only [hrefused, haccepted, Bool.false_eq_true, if_false]
  exact totalExact_iff (haccepted ▸ written_length ..) sum

end

/-- Where the transfers are all full, each of the two calls reports the sum of the lengths
that its caller named, or refuses it before it transfers anything, if and only if the sum is
an int and the entries that sys_readv fetches still add up to it. -/
theorem vectored_totals_iff (s : Process) (fd : Word) (iov : Addr) (iovcnt : Word)
    (reads : Nat → List Byte → ReadAnswer) (writes : Nat → WriteAnswer) :
    (ReadInFull reads s fd iov iovcnt →
      (TotalExact (sysReadv reads s fd iov iovcnt).result
          (sysReadv reads s fd iov iovcnt).received.flatten
          (totalLength (iovEntries s.mem iov 0 iovcnt.toNat)) ↔
        totalLength (iovEntries s.mem iov 0 iovcnt.toNat) < 2^31 ∧
        totalLength (readBuffers reads s fd iov iovcnt) =
          totalLength (iovEntries s.mem iov 0 iovcnt.toNat))) ∧
    (WrittenInFull writes s fd iov iovcnt →
      (TotalExact (sysWritev writes s fd iov iovcnt).1 (sysWritev writes s fd iov iovcnt).2
          (totalLength (iovEntries s.mem iov 0 iovcnt.toNat)) ↔
        totalLength (iovEntries s.mem iov 0 iovcnt.toNat) < 2^31)) :=
  ⟨fun h => readv_total_iff h _,fun h => (writev_total_iff h _).trans (and_iff_left rfl)⟩

section sample

/-- Three views of one buffer of 1 GiB. -/
def oneThrice : List IoVec :=
  [⟨0x10000000#32,0x40000000#32⟩,⟨0x10000000#32,0x40000000#32⟩,⟨0x10000000#32,0x40000000#32⟩]

/-- Standard input with `n` bytes unread, and the three entries at 2000h. -/
def longInput (n : Nat) : Process where
  params := ⟨3#32,7#32,11#32⟩
  files := fun _ => List.replicate n 0#8
  mem := storeAll (fun _ => 0#8) [(0x2000#32,bytes32 0x10000000#32),
    (0x2004#32,bytes32 0x40000000#32),(0x2008#32,bytes32 0x10000000#32),
    (0x200c#32,bytes32 0x40000000#32),(0x2010#32,bytes32 0x10000000#32),
    (0x2014#32,bytes32 0x40000000#32)]

private theorem longInput_entries (n : Nat) :
    iovEntries (longInput n).mem 0x2000#32 0 3 = oneThrice := by
  have h : iovEntries (longInput 0).mem 0x2000#32 0 3 = oneThrice := by decide
  exact h

private theorem longInput_offArray (n : Nat) : OffArray (longInput n).mem 0x2000#32 3 := by
  rw [OffArray, longInput_entries]
  rintro x hx ⟨v,hv,hin⟩
  have hv' : v = ⟨0x10000000#32,0x40000000#32⟩ := by simpa [oneThrice] using hv
  subst hv'
  simp only [InArray, Within] at hx hin
  bv_omega

private theorem longInput_full {n : Nat} (hn : 2^32 ≤ n) :
    ReadInFull (fun _ _ => .delivers (2^30)) (longInput n) 0#32 0x2000#32 3#32 := by
  have hopen : translateFile (longInput n) 0#32 = 3#32 := rfl
  have hlen : (0x40000000#32).toNat = 2^30 := rfl
  have hfull : ∀ k, k ≤ 2^31 →
      answered (List.replicate (n - k) 0#8) 0x40000000#32 (2^30) = (0x40000000#32).toNat := by
    intro k hk
    rw [answered, List.length_replicate, hlen]
    omega
  have hbuffers : readBuffers (fun _ _ => .delivers (2^30)) (longInput n) 0#32 0x2000#32 3#32 =
      oneThrice := (fetched_offArray (longInput_offArray n)).trans (longInput_entries n)
  rw [ReadInFull, hbuffers]
  refine ⟨?_,?_,?_,?_,trivial⟩
  · rw [hopen]
    decide
  · exact hfull 0 (by decide)
  · change answered ((List.replicate n 0#8).drop _) _ _ = _
    rw [List.drop_replicate]
    exact hfull _ (by decide)
  · change answered (((List.replicate n 0#8).drop _).drop _) _ _ = _
    rw [List.drop_replicate, List.drop_replicate, Nat.sub_sub]
    exact hfull _ (by decide)

/-- Both calls transfer the buffer three times, in full, and neither reports 3 GiB. -/
theorem oneThrice_misreported :
    (ReadInFull (fun _ _ => .delivers (2^30)) (longInput (2^32)) 0#32 0x2000#32 3#32 ∧
      ¬ TotalExact
        (sysReadv (fun _ _ => .delivers (2^30)) (longInput (2^32)) 0#32 0x2000#32 3#32).result
        (sysReadv (fun _ _ => .delivers (2^30)) (longInput (2^32)) 0#32 0x2000#32
          3#32).received.flatten
        (totalLength (iovEntries (longInput (2^32)).mem 0x2000#32 0 3))) ∧
    (WrittenInFull (fun _ => .takes (2^30)) (longInput 0) 1#32 0x2000#32 3#32 ∧
      ¬ TotalExact (sysWritev (fun _ => .takes (2^30)) (longInput 0) 1#32 0x2000#32 3#32).1
        (sysWritev (fun _ => .takes (2^30)) (longInput 0) 1#32 0x2000#32 3#32).2
        (totalLength (iovEntries (longInput 0).mem 0x2000#32 0 3))) := by
  have hreads := longInput_full (Nat.le_refl (2^32))
  have hwrites : WrittenInFull (fun _ => .takes (2^30)) (longInput 0) 1#32 0x2000#32 3#32 := by
    refine ⟨by decide,?_⟩
    change WritesFull _ (iovEntries (longInput 0).mem 0x2000#32 0 3) 0
    rw [longInput_entries]
    exact ⟨Nat.le_refl _,Nat.le_refl _,Nat.le_refl _,trivial⟩
  have hlong : ¬ totalLength oneThrice < 2^31 := by decide
  simp only [longInput_entries]
  refine ⟨⟨hreads,?_⟩,hwrites,?_⟩
  · rw [readv_total_iff hreads]
    exact fun h => hlong h.1
  · rw [writev_total_iff hwrites]
    exact fun h => hlong h.1

end sample
end Line2.Lnexec
