import Line2.Lnexec.SysRead

/-! Writing to the standard handles. sys_writev hands NtWriteFile one buffer after
the other and adds up what was taken: also past a short write, and a failure makes
it forget what earlier buffers gave. -/
namespace Line2.Lnexec
open Library.Memory Library.Locality

/-- How NtWriteFile ends for a buffer: it takes up to `n` of its bytes, or fails. -/
inductive WriteAnswer
  | takes (n : Nat)
  | fails
  deriving DecidableEq

/-- The bytes it takes, as many as `Iosb.Information` says; `none` is a failure. -/
def ntWriteFile (m : Mem) (buffer : Addr) (length : Word) : WriteAnswer → Option (List Byte)
  | .takes n => some ((load m buffer length.toNat).take n)
  | .fails => none

/-- The loop of sys_writev from buffer `i` on, with `n` to go: its result and the bytes
emitted. -/
def writevLoop (m : Mem) (answers : Nat → WriteAnswer) (iov : Addr) :
    Nat → Nat → Word → Int × List Byte
  | 0, _, totalBytes => (totalBytes.toInt,[])
  | n + 1, i, totalBytes =>
    let v := iovEntry m iov i
    match ntWriteFile m v.iovBase v.iovLen (answers i) with
    | some bytes =>
      let (result,emitted) :=
        writevLoop m answers iov n (i + 1) (totalBytes + BitVec.ofNat 32 bytes.length)
      (result,bytes ++ emitted)
    | none => (-1,[])

def sysWritev (answers : Nat → WriteAnswer) (s : Process) (fd : Word) (iov : Addr)
    (iovcnt : Word) : Int × List Byte :=
  let hFile := translateFile s fd
  if hFile = 0#32 then (-LINUX_EBADF,[]) else writevLoop s.mem answers iov iovcnt.toNat 0 0#32

/-- The bytes that NtWriteFile takes from buffer `i` on, up to the first failure. -/
def written (m : Mem) (answers : Nat → WriteAnswer) : List IoVec → Nat → List Byte
  | [], _ => []
  | v :: iov, i =>
    match answers i with
    | .takes n => (load m v.iovBase v.iovLen.toNat).take n ++ written m answers iov (i + 1)
    | .fails => []

section answers
variable (answers : Nat → WriteAnswer)

/-- How many they are. -/
def accepted : List IoVec → Nat → Nat
  | [], _ => 0
  | v :: iov, i =>
    match answers i with
    | .takes n => min n v.iovLen.toNat + accepted iov (i + 1)
    | .fails => 0

/-- One of the buffers from `i` on fails. -/
def refused : List IoVec → Nat → Bool
  | [], _ => false
  | _ :: iov, i =>
    match answers i with
    | .takes _ => refused iov (i + 1)
    | .fails => true

/-- No byte is taken after a buffer of which some were left. -/
def TakesInOrder : List IoVec → Nat → Prop
  | [], _ => True
  | v :: iov, i =>
    match answers i with
    | .takes n =>
      if v.iovLen.toNat ≤ n then TakesInOrder iov (i + 1) else accepted answers iov (i + 1) = 0
    | .fails => True

/-- Nothing is taken past a short buffer, nor ahead of one that fails, and fewer than 2^31
bytes are taken in all. -/
structure WritesInOrder (iov : List IoVec) : Prop where
  order : TakesInOrder answers iov 0
  failure : refused answers iov 0 = true → accepted answers iov 0 = 0
  count : accepted answers iov 0 < 2^31

end answers

section
variable {m : Mem} {answers : Nat → WriteAnswer}

theorem writevLoop_spec (iov : Addr) (n i : Nat) (totalBytes : Word) :
    writevLoop m answers iov n i totalBytes =
      (if refused answers (iovEntries m iov i n) i then -1
        else (totalBytes + BitVec.ofNat 32
          (written m answers (iovEntries m iov i n) i).length).toInt,
      written m answers (iovEntries m iov i n) i) := by
  induction n generalizing i totalBytes with
  | zero => simp [writevLoop, iovEntries, refused, written]
  | succ n ih =>
    rw [iovEntries_succ]
    cases ha : answers i with
    | takes k =>
      simp only [writevLoop, ha, ntWriteFile, ih (i + 1), refused, written, List.length_append,
        BitVec.ofNat_add, BitVec.add_assoc]
    | fails => simp [writevLoop, ha, ntWriteFile, refused, written]

theorem written_length (m : Mem) (answers : Nat → WriteAnswer) (iov : List IoVec) (i : Nat) :
    (written m answers iov i).length = accepted answers iov i := by
  induction iov generalizing i with
  | nil => rfl
  | cons v iov ih =>
    cases ha : answers i with
    | takes n => simp only [written, accepted, ha, List.length_append, List.length_take,
        load_length, ih]
    | fails => simp only [written, accepted, ha, List.length_nil]

/-- What is taken in order is a prefix. -/
theorem TakesInOrder.begins {iov : List IoVec} {i : Nat} (h : TakesInOrder answers iov i)
    (m : Mem) : written m answers iov i <+: gathered m iov := by
  induction iov generalizing i with
  | nil => exact List.prefix_refl _
  | cons v iov ih =>
    rw [TakesInOrder] at h
    rw [gathered_cons]
    cases ha : answers i with
    | takes n =>
      simp only [ha] at h
      simp only [written, ha]
      split at h
      · rename_i hn
        rw [List.take_of_length_le (by simpa using hn), List.prefix_append_right_inj]
        exact ih h
      · have hnil : written m answers iov (i + 1) = [] := by
          rw [← List.length_eq_zero_iff, written_length, h]
        rw [hnil, List.append_nil]
        exact (List.take_prefix ..).trans (List.prefix_append ..)
    | fails =>
      simp only [written, ha]
      exact List.nil_prefix

/-- Bytes that are taken begin with the first of some buffer. -/
theorem written_head {iov : List IoVec} {i : Nat} (h : accepted answers iov i ≠ 0) :
    ∃ w ∈ iov, 0 < w.iovLen.toNat ∧
      ∀ m, ∃ rest, written m answers iov i = m w.iovBase :: rest := by
  induction iov generalizing i with
  | nil => exact absurd rfl h
  | cons v iov ih =>
    cases ha : answers i with
    | fails =>
      simp only [accepted, ha] at h
      exact absurd rfl h
    | takes n =>
      simp only [accepted, ha] at h
      rcases Nat.eq_zero_or_pos (min n v.iovLen.toNat) with hz | hpos
      · rw [hz, Nat.zero_add] at h
        obtain ⟨w,hw,hlen,hhead⟩ := ih h
        refine ⟨w,List.mem_cons_of_mem _ hw,hlen,fun m => ?_⟩
        have hnil : (load m v.iovBase v.iovLen.toNat).take n = [] := by
          rw [← List.length_eq_zero_iff, List.length_take, load_length, hz]
        simp only [written, ha, hnil, List.nil_append]
        exact hhead m
      · refine ⟨v,List.mem_cons_self,by omega,fun m => ?_⟩
        obtain ⟨k,hk⟩ := Nat.exists_eq_succ_of_ne_zero (show v.iovLen.toNat ≠ 0 by omega)
        obtain ⟨l,rfl⟩ := Nat.exists_eq_succ_of_ne_zero (show n ≠ 0 by omega)
        have hload : load m v.iovBase v.iovLen.toNat =
            m v.iovBase :: load m (v.iovBase + 1#32) k := by
          rw [hk, ← Nat.add_one, Nat.add_comm, load_append]
          simp [load]
        simp only [written, ha, hload, List.take_succ_cons, List.cons_append]
        exact ⟨_,rfl⟩

/-- Bytes past a short buffer are no part of a prefix if the memory is so that they differ
from what was left. -/
private theorem short_not_begins {v : IoVec} {iov : List IoVec} {i n : Nat}
    (hapart : Apart (v :: iov)) (hn : n < v.iovLen.toNat) (haccepted : accepted answers iov i ≠ 0)
    (m : Mem) : ∃ m', AgreeOutside (InBuffers (v :: iov)) m m' ∧
      ¬ written m' answers iov i <+:
        (load m' v.iovBase v.iovLen.toNat).drop n ++ gathered m' iov := by
  obtain ⟨w,hw,hlen,hhead⟩ := written_head haccepted
  obtain ⟨hfirst,_⟩ := List.pairwise_cons.mp hapart
  have hv := v.iovLen.isLt
  have hin : Within v.iovBase v.iovLen.toNat (v.iovBase + BitVec.ofNat 32 n) := by
    rw [Within, offset_toNat v.iovBase (by omega)]
    exact hn
  have hown : Within w.iovBase w.iovLen.toNat w.iovBase := by
    rw [Within, BitVec.sub_self]
    exact hlen
  have hne : v.iovBase + BitVec.ofNat 32 n ≠ w.iovBase := by
    intro heq
    rw [heq] at hin
    exact hfirst w hw _ ⟨hin,hown⟩
  let m' := Function.update m w.iovBase (~~~ m (v.iovBase + BitVec.ofNat 32 n))
  refine ⟨m',?_,?_⟩
  · intro x hx
    refine Function.update_of_ne ?_ ..
    rintro rfl
    exact hx ⟨w,List.mem_cons_of_mem _ hw,hown⟩
  · obtain ⟨rest,hwritten⟩ := hhead m'
    have hdrop : (load m' v.iovBase v.iovLen.toNat).drop n =
        m' (v.iovBase + BitVec.ofNat 32 n) ::
          (load m' v.iovBase v.iovLen.toNat).drop (n + 1) := by
      rw [List.drop_eq_getElem_cons (by rwa [load_length])]
      simp [load]
    have hhere : m' w.iovBase = ~~~ m (v.iovBase + BitVec.ofNat 32 n) := Function.update_self ..
    have hthere : m' (v.iovBase + BitVec.ofNat 32 n) = m (v.iovBase + BitVec.ofNat 32 n) :=
      Function.update_of_ne hne ..
    rw [hwritten, hdrop, List.cons_append, List.cons_prefix_cons, hhere, hthere]
    rintro ⟨hbyte,_⟩
    exact absurd hbyte (by bv_omega)

/-- What is a prefix whatever the buffers hold is taken in order. -/
theorem takesInOrder_of_begins {iov : List IoVec} {i : Nat} (hapart : Apart iov)
    (h : ∀ m', AgreeOutside (InBuffers iov) m m' → written m' answers iov i <+: gathered m' iov) :
    TakesInOrder answers iov i := by
  induction iov generalizing i with
  | nil => trivial
  | cons v iov ih =>
    cases ha : answers i with
    | fails => simp only [TakesInOrder, ha]
    | takes n =>
      simp only [written, ha, gathered_cons] at h
      simp only [TakesInOrder, ha]
      split
      · rename_i hn
        refine ih (List.pairwise_cons.mp hapart).2 fun m' hm' => ?_
        have hwhole := h m' fun x hx =>
          hm' x fun ⟨w,hw,hin⟩ => hx ⟨w,List.mem_cons_of_mem _ hw,hin⟩
        rwa [List.take_of_length_le (by simpa using hn), List.prefix_append_right_inj] at hwhole
      · rename_i hn
        by_contra haccepted
        obtain ⟨m',hm',hno⟩ := short_not_begins hapart (Nat.lt_of_not_le hn) haccepted m
        have hshort := h m' hm'
        rw [← List.take_append_drop n (load m' v.iovBase v.iovLen.toNat), List.append_assoc,
          List.take_append_drop, List.prefix_append_right_inj] at hshort
        exact hno hshort

end

/-- The output of a call: a caller that goes on from the returned offset, or starts
over after a failure, sends every byte once and in order. -/
structure OutputExact (m : Mem) (iov : List IoVec) (r : Int × List Byte) : Prop where
  order : r.2 <+: gathered m iov
  counted : 0 ≤ r.1 → r.1 = r.2.length
  failed : r.1 < 0 → r.2 = []
  resumed : r.2 ++ (gathered m iov).drop r.1.toNat = gathered m iov

theorem OutputExact.of_parts {m : Mem} {iov : List IoVec} {r : Int × List Byte}
    (horder : r.2 <+: gathered m iov) (hcounted : 0 ≤ r.1 → r.1 = r.2.length)
    (hfailed : r.1 < 0 → r.2 = []) : OutputExact m iov r where
  order := horder
  counted := hcounted
  failed := hfailed
  resumed := by
    obtain ⟨rest,hrest⟩ := horder
    have hoffset : r.1.toNat = r.2.length := by
      rcases Int.lt_or_le r.1 0 with hneg | hnonneg
      · rw [hfailed hneg, Int.toNat_of_nonpos (Int.le_of_lt hneg), List.length_nil]
      · rw [hcounted hnonneg, Int.toNat_natCast]
    rw [hoffset, ← hrest, List.drop_left]

/-- A total kept in 32 bits is the number of bytes as long as that fits a signed int. -/
private theorem total_exact_iff (n : Nat) :
    (0 ≤ (BitVec.ofNat 32 n).toInt → (BitVec.ofNat 32 n).toInt = n) ∧
      ((BitVec.ofNat 32 n).toInt < 0 → n = 0) ↔ n < 2^31 := by
  rw [BitVec.toInt_eq_toNat_cond, BitVec.toNat_ofNat]
  constructor
  · rintro ⟨hcounted,hfailed⟩
    split at hcounted <;> omega
  · intro hn
    rw [if_pos (by omega), Nat.mod_eq_of_lt (by omega)]
    exact ⟨fun _ => rfl,fun h => by omega⟩

section
variable {answers : Nat → WriteAnswer} {s : Process} {fd : Word} {iov : Addr} {iovcnt : Word}

theorem sysWritev_open (ho : translateFile s fd ≠ 0#32) : sysWritev answers s fd iov iovcnt =
    let buffers := iovEntries s.mem iov 0 iovcnt.toNat
    (if refused answers buffers 0 then -1
      else (BitVec.ofNat 32 (accepted answers buffers 0)).toInt,
    written s.mem answers buffers 0) := by
  rw [sysWritev, if_neg ho, writevLoop_spec, BitVec.zero_add, written_length]

theorem outputExact_of_inOrder (h : translateFile s fd ≠ 0#32 →
      WritesInOrder answers (iovEntries s.mem iov 0 iovcnt.toNat)) :
    OutputExact s.mem (iovEntries s.mem iov 0 iovcnt.toNat)
      (sysWritev answers s fd iov iovcnt) := by
  by_cases ho : translateFile s fd = 0#32
  · rw [sysWritev, if_pos ho]
    exact OutputExact.of_parts List.nil_prefix (fun h => absurd h (by decide)) (fun _ => rfl)
  · obtain ⟨horder,hfailure,hcount⟩ := h ho
    rw [sysWritev_open ho]
    generalize iovEntries s.mem iov 0 iovcnt.toNat = buffers at *
    have hlen := written_length s.mem answers buffers 0
    have hbegins := horder.begins s.mem
    cases hr : refused answers buffers 0 with
    | true =>
      have hnil := List.length_eq_zero_iff.mp (hlen.trans (hfailure hr))
      simp only [hr, if_true]
      refine OutputExact.of_parts hbegins ?_ (fun _ => hnil)
      exact fun h => absurd (show (0 : Int) ≤ -1 from h) (by decide)
    | false =>
      obtain ⟨hcounted,hfailed⟩ := (total_exact_iff _).mpr hcount
      simp only [hr, Bool.false_eq_true, if_false]
      refine OutputExact.of_parts hbegins ?_ ?_
      · simpa only [hlen] using hcounted
      · exact fun hneg => List.length_eq_zero_iff.mp (hlen.trans (hfailed hneg))

/-- The numbers come out right only where no failure hides bytes and the total is an int. -/
private theorem counts_of_outputExact (ho : translateFile s fd ≠ 0#32)
    (h : OutputExact s.mem (iovEntries s.mem iov 0 iovcnt.toNat)
      (sysWritev answers s fd iov iovcnt)) :
    let buffers := iovEntries s.mem iov 0 iovcnt.toNat
    (refused answers buffers 0 = true → accepted answers buffers 0 = 0) ∧
      accepted answers buffers 0 < 2^31 := by
  rw [sysWritev_open ho] at h
  obtain ⟨_,hcounted,hfailed,_⟩ := h
  generalize iovEntries s.mem iov 0 iovcnt.toNat = buffers at *
  have hlen := written_length s.mem answers buffers 0
  cases hr : refused answers buffers 0 with
  | true =>
    simp only [hr, if_true] at hfailed
    rw [hfailed (by decide), List.length_nil] at hlen
    exact ⟨fun _ => hlen.symm,by omega⟩
  | false =>
    simp only [hr, Bool.false_eq_true, if_false, hlen] at hcounted hfailed
    have hzero : (BitVec.ofNat 32 (accepted answers buffers 0)).toInt < 0 →
        accepted answers buffers 0 = 0 := by
      intro hneg
      rw [hfailed hneg, List.length_nil] at hlen
      exact hlen.symm
    exact ⟨fun hc => absurd (hr.symm.trans hc) Bool.false_ne_true,
      (total_exact_iff _).mp ⟨hcounted,hzero⟩⟩

/-- The same array in memory that differs in the buffers only. -/
private theorem entries_kept (hoff : OffArray s.mem iov iovcnt.toNat) {m' : Mem}
    (hm : AgreeOutside (InBuffers (iovEntries s.mem iov 0 iovcnt.toNat)) s.mem m') :
    iovEntries m' iov 0 iovcnt.toNat = iovEntries s.mem iov 0 iovcnt.toNat :=
  iovEntries_congr hm hoff

theorem inOrder_of_outputExact (hs : Separate s.mem iov iovcnt.toNat)
    (h : ∀ m', AgreeOutside (InBuffers (iovEntries s.mem iov 0 iovcnt.toNat)) s.mem m' →
      OutputExact m' (iovEntries m' iov 0 iovcnt.toNat)
        (sysWritev answers { s with mem := m' } fd iov iovcnt))
    (ho : translateFile s fd ≠ 0#32) :
    WritesInOrder answers (iovEntries s.mem iov 0 iovcnt.toNat) := by
  obtain ⟨hfailure,hcount⟩ := counts_of_outputExact ho (h s.mem fun _ _ => rfl)
  refine ⟨takesInOrder_of_begins (m := s.mem) hs.apart fun m' hm => ?_,hfailure,hcount⟩
  have horder := (h m' hm).order
  rwa [sysWritev_open (s := { s with mem := m' }) ho, entries_kept hs.offArray hm] at horder

end

/-- sys_writev puts out exactly what it reports if its writes are in order; and where the
buffers share no byte, with each other or with the array, it does so for all that they can
hold only then. -/
theorem output_exact_iff (answers : Nat → WriteAnswer) (s : Process) (fd : Word) (iov : Addr)
    (iovcnt : Word) :
    ((translateFile s fd ≠ 0#32 →
        WritesInOrder answers (iovEntries s.mem iov 0 iovcnt.toNat)) →
      OutputExact s.mem (iovEntries s.mem iov 0 iovcnt.toNat)
        (sysWritev answers s fd iov iovcnt)) ∧
    (Separate s.mem iov iovcnt.toNat →
      (∀ m', AgreeOutside (InBuffers (iovEntries s.mem iov 0 iovcnt.toNat)) s.mem m' →
        OutputExact m' (iovEntries m' iov 0 iovcnt.toNat)
          (sysWritev answers { s with mem := m' } fd iov iovcnt)) →
      translateFile s fd ≠ 0#32 →
      WritesInOrder answers (iovEntries s.mem iov 0 iovcnt.toNat)) :=
  ⟨outputExact_of_inOrder,inOrder_of_outputExact⟩

section sample

/-- A process whose output handle is open, with an array of two buffers of four bytes at
2000h; the first buffer counts up, the other is zero. -/
def countingProcess : Process where
  params := ⟨3#32,7#32,11#32⟩
  files := fun _ => []
  mem := storeAll (fun _ => 0#8) [(0x2000#32,bytes32 0x3000#32),(0x2004#32,bytes32 4#32),
    (0x2008#32,bytes32 0x4000#32),(0x200c#32,bytes32 4#32),(0x3000#32,[1,2,3,4])]

/-- A short write of one byte, and then the other buffer taken whole. -/
theorem shortWrite_duplicates :
    iovEntries countingProcess.mem 0x2000#32 0 2 = [⟨0x3000#32,4#32⟩,⟨0x4000#32,4#32⟩] ∧
    ¬ OutputExact countingProcess.mem (iovEntries countingProcess.mem 0x2000#32 0 2)
      (sysWritev (fun i => if i = 0 then .takes 1 else .takes 4) countingProcess 1#32
        0x2000#32 2#32) := by
  refine ⟨by decide,?_⟩
  intro h
  exact absurd h.order (by decide)

end sample
end Line2.Lnexec
