import Line2.Lnexec.SysRead

/-! Where sys_readv puts what it reads. Each NtReadFile starts at its own buffer, so a
short read leaves a gap before the next one's bytes. -/
namespace Line2.Lnexec
open Library.Memory

section
variable {answers : Nat → List Byte → ReadAnswer} {s : Process} {hFile : Handle} {iov : List IoVec}

/-- What the loop leaves when no read of it fails. -/
def afterReads (answers : Nat → List Byte → ReadAnswer) (s : Process) (hFile : Handle)
    (iov : List IoVec) : Scattered :=
  let file := s.files hFile
  ⟨(BitVec.ofNat 32 (scattered answers iov 0 file)).toInt,
    s.advance hFile (scattered answers iov 0 file)
      (storeAll s.mem ((iov.map IoVec.iovBase).zip (received answers iov 0 file))),
    received answers iov 0 file⟩

end

/-- The buffers as the call to the descriptor fetches them. -/
def readBuffers (answers : Nat → List Byte → ReadAnswer) (s : Process) (fd : Word) (iov : Addr)
    (iovcnt : Word) : List IoVec :=
  fetched (translateFile s fd) answers (fun m => iovEntry m iov) iovcnt.toNat 0 s

section
variable {answers : Nat → List Byte → ReadAnswer} {s : Process} {fd : Word} {iov : Addr}
  {iovcnt : Word}

theorem sysReadv_counts (ho : translateFile s fd ≠ 0#32)
    (hr : readRefused answers (readBuffers answers s fd iov iovcnt) 0
      (s.files (translateFile s fd)) = false) :
    sysReadv answers s fd iov iovcnt =
      afterReads answers s (translateFile s fd) (readBuffers answers s fd iov iovcnt) := by
  rw [sysReadv, readvFrom, if_neg ho, readvLoop_spec]
  unfold readBuffers at hr
  simp only [hr, Bool.false_eq_true, if_false, BitVec.zero_add]
  rfl

end

section sample

end sample
end Line2.Lnexec
