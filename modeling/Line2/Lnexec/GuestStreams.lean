import Line2.Lnexec.ScatteredInput
import Line2.Lnexec.SysWrite
import Line2.Lnexec.SystemRuns

/-! The byte streams of a guest as it sees them: what it reads it finds in its buffers, as
much as EAX says, and what it writes it had there. -/
namespace Line2.Lnexec
open Library.Memory Library.Locality Library.Runs Library.Simulation Ia32

/-- The buffers of a call. -/
def SysFunction.buffers (f : SysFunction) (args : SysArgs) (m : Mem) : List IoVec :=
  match f with
  | .sysRead => [⟨args.arg2,args.arg3⟩]
  | .sysReadv | .sysWritev => iovEntries m args.arg2 0 args.arg3.toNat
  | _ => []

section reads
variable {answers : Nat → List Byte → ReadAnswer} {s : Process} {fd : Word}
  {entry : Mem → Nat → IoVec} {iovcnt : Word} {iov : List IoVec}

end reads

section writes
variable {answers : Nat → WriteAnswer} {s : Process} {fd : Word} {iov : Addr} {iovcnt : Word}

end writes

section steps
variable {host : HostCode} {reserve : Nat} {c : Machine} {a : MachineAction} {h : HostAnswers}

end steps

section sample

end sample
end Line2.Lnexec
