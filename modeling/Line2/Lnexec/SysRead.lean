import Line2.Lnexec.IoVectors
import Mathlib.Logic.Function.Basic

/-! Reading from the standard handles. sys_readv fetches one entry of its array after the
other, asks NtReadFile for that buffer and adds up what was delivered, also past a short
read; sys_read is its one-buffer case. -/
namespace Line2.Lnexec
open Library.Memory Library.Locality

abbrev Handle := Word

structure ProcessParameters where
  standardInput : Handle
  standardOutput : Handle
  standardError : Handle

/-- What a read touches: the handles of the PEB, the unread bytes of the stream
behind each handle, and the guest's memory. -/
structure Process where
  params : ProcessParameters
  files : Handle → List Byte
  mem : Mem

def LINUX_EBADF : Int := 9

def translateFile (s : Process) (fd : Word) : Handle :=
  if fd = 0#32 then s.params.standardInput
  else if fd = 1#32 then s.params.standardOutput
  else if fd = 2#32 then s.params.standardError
  else 0#32

/-- How NtReadFile ends for a buffer: it delivers up to `n` bytes, also none, or fails. -/
inductive ReadAnswer
  | delivers (n : Nat)
  | fails

/-- How many bytes of the stream an answer brings into a buffer. -/
def answered (file : List Byte) (length : Word) (n : Nat) : Nat :=
  min n (min length.toNat file.length)

/-- The file's position moved on by `n` bytes, the memory as given. -/
def Process.advance (s : Process) (hFile : Handle) (n : Nat) (mem : Mem) : Process :=
  {s with files := Function.update s.files hFile ((s.files hFile).drop n), mem := mem}

/-- What sys_readv did: its result, the process it left, and what each buffer that it
came to was given. -/
structure Scattered where
  result : Int
  process : Process
  received : List (List Byte)

section loop
variable (hFile : Handle) (answers : Nat → List Byte → ReadAnswer) (entry : Mem → Nat → IoVec)

/-- The loop of sys_readv from buffer `i` on, with `n` to go. `entry` is `iov[CurrentBuffer]`
in memory as it is by then; an answer may depend on what is unread. -/
def readvLoop : Nat → Nat → Word → Process → Scattered
  | 0, _, totalBytes, s => ⟨totalBytes.toInt,s,[]⟩
  | n + 1, i, totalBytes, s =>
    let v := entry s.mem i
    let file := s.files hFile
    match answers i file with
    | .delivers d =>
      let k := answered file v.iovLen d
      let r := readvLoop n (i + 1) (totalBytes + BitVec.ofNat 32 k)
        (s.advance hFile k (store s.mem v.iovBase (file.take k)))
      { r with received := file.take k :: r.received }
    | .fails => ⟨-1,s,[]⟩

/-- The entries as the loop gets to see them; from a failure on, as they then are. -/
def fetched : Nat → Nat → Process → List IoVec
  | 0, _, _ => []
  | n + 1, i, s =>
    let v := entry s.mem i
    let file := s.files hFile
    match answers i file with
    | .delivers d =>
      let k := answered file v.iovLen d
      v :: fetched n (i + 1) (s.advance hFile k (store s.mem v.iovBase (file.take k)))
    | .fails => (List.range' i (n + 1)).map (entry s.mem)

end loop

/-- Both calls, by how an entry is fetched. -/
def readvFrom (answers : Nat → List Byte → ReadAnswer) (s : Process) (fd : Word)
    (entry : Mem → Nat → IoVec) (iovcnt : Word) : Scattered :=
  let hFile := translateFile s fd
  if hFile = 0#32 then ⟨-LINUX_EBADF,s,[]⟩
  else readvLoop hFile answers entry iovcnt.toNat 0 0#32 s

/-- The array is in guest memory. -/
def sysReadv (answers : Nat → List Byte → ReadAnswer) (s : Process) (fd : Word) (iov : Addr)
    (iovcnt : Word) : Scattered :=
  readvFrom answers s fd (fun m => iovEntry m iov) iovcnt

/-- The array is a local of sys_read. -/
def sysRead (answers : Nat → List Byte → ReadAnswer) (s : Process) (fd : Word) (buf : Addr)
    (count : Word) : Scattered :=
  readvFrom answers s fd (fun _ _ => ⟨buf,count⟩) 1#32

section account
variable (answers : Nat → List Byte → ReadAnswer)

/-- How many bytes the buffers from `i` on are given in all. -/
def scattered : List IoVec → Nat → List Byte → Nat
  | [], _, _ => 0
  | v :: iov, i, file =>
    match answers i file with
    | .delivers n =>
      let k := answered file v.iovLen n
      k + scattered iov (i + 1) (file.drop k)
    | .fails => 0

/-- What each of them is given. -/
def received : List IoVec → Nat → List Byte → List (List Byte)
  | [], _, _ => []
  | v :: iov, i, file =>
    match answers i file with
    | .delivers n =>
      let k := answered file v.iovLen n
      file.take k :: received iov (i + 1) (file.drop k)
    | .fails => []

/-- One of their reads fails. -/
def readRefused : List IoVec → Nat → List Byte → Bool
  | [], _, _ => false
  | v :: iov, i, file =>
    match answers i file with
    | .delivers n => readRefused iov (i + 1) (file.drop (answered file v.iovLen n))
    | .fails => true

end account

@[simp] theorem Process.advance_files (s : Process) (hFile : Handle) (n : Nat) (mem : Mem) :
    (s.advance hFile n mem).files hFile = (s.files hFile).drop n :=
  Function.update_self ..

@[simp] theorem Process.advance_advance (s : Process) (hFile : Handle) (n k : Nat)
    (mem mem' : Mem) :
    (s.advance hFile n mem).advance hFile k mem' = s.advance hFile (n + k) mem' := by
  simp [Process.advance]

@[simp] theorem Process.advance_zero (s : Process) (hFile : Handle) :
    s.advance hFile 0 s.mem = s := by
  simp [Process.advance]

theorem answered_le (file : List Byte) (length : Word) (n : Nat) :
    answered file length n ≤ file.length := by
  unfold answered
  omega

theorem answered_le_buffer (file : List Byte) (length : Word) (n : Nat) :
    answered file length n ≤ length.toNat := by
  unfold answered
  omega

section account
variable {hFile : Handle} {answers : Nat → List Byte → ReadAnswer}

/-- What the loop does, by the entries it fetched. -/
theorem readvLoop_spec (entry : Mem → Nat → IoVec) (n i : Nat) (totalBytes : Word) (s : Process) :
    readvLoop hFile answers entry n i totalBytes s =
      let iov := fetched hFile answers entry n i s
      let file := s.files hFile
      ⟨if readRefused answers iov i file then -1
        else (totalBytes + BitVec.ofNat 32 (scattered answers iov i file)).toInt,
      s.advance hFile (scattered answers iov i file) (storeAll s.mem
        ((iov.map IoVec.iovBase).zip (received answers iov i file))),
      received answers iov i file⟩ := by
  induction n generalizing i totalBytes s with
  | zero => simp [readvLoop, fetched, readRefused, scattered, received, storeAll]
  | succ n ih =>
    cases ha : answers i (s.files hFile) with
    | delivers d =>
      simp only [readvLoop, fetched, ha, ih, readRefused, scattered, received,
        Process.advance_files, Process.advance_advance, List.map_cons, List.zip_cons_cons,
        storeAll, List.foldl_cons, BitVec.ofNat_add, BitVec.add_assoc]
      rfl
    | fails =>
      simp [readvLoop, fetched, List.range'_succ, ha, readRefused, scattered, received, storeAll]

/-- As long as no buffer lies over the array, the entries are fetched as they were. -/
theorem fetched_offArray {iov : Addr} {n i : Nat} {s : Process}
    (h : Avoids (InArray iov i n) (InBuffers (iovEntries s.mem iov i n))) :
    fetched hFile answers (fun m => iovEntry m iov) n i s = iovEntries s.mem iov i n := by
  induction n generalizing i s with
  | zero => rfl
  | succ n ih =>
    cases ha : answers i (s.files hFile) with
    | fails =>
      simp only [fetched, ha]
      rfl
    | delivers d =>
      let v := iovEntry s.mem iov i
      let k := answered (s.files hFile) v.iovLen d
      let m' := store s.mem v.iovBase ((s.files hFile).take k)
      rw [iovEntries_succ] at h ⊢
      have hchange : AgreeOutside (InBuffers (v :: iovEntries s.mem iov (i + 1) n)) s.mem m' := by
        intro x hx
        apply store_outside
        have hk := answered_le_buffer (s.files hFile) v.iovLen d
        have htake := List.length_take_le k (s.files hFile)
        intro hin
        exact hx ⟨v,List.mem_cons_self,Nat.lt_of_lt_of_le hin (Nat.le_trans htake hk)⟩
      have hentries : iovEntries m' iov (i + 1) n = iovEntries s.mem iov (i + 1) n :=
        iovEntries_congr hchange (h.mono fun x => (InArray.split ..).2)
      have hrest : fetched hFile answers (fun m => iovEntry m iov) n (i + 1)
          (s.advance hFile k m') = iovEntries m' iov (i + 1) n := by
        apply ih
        change Avoids _ (InBuffers (iovEntries m' iov (i + 1) n))
        rw [hentries]
        intro x hx hin
        obtain ⟨w,hw,hwx⟩ := hin
        exact h x ((InArray.split ..).2 hx) ⟨w,List.mem_cons_of_mem _ hw,hwx⟩
      simp only [fetched, ha]
      rw [hrest, hentries]

end account
end Line2.Lnexec
