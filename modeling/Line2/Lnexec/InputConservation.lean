import Line2.Lnexec.SysRead
import Line2.Library.Runs

/-! Whether every byte taken from standard input is reported. A read that fails at
the end of the file drops what earlier buffers of the same call were given. -/
namespace Line2.Lnexec
open Library.Memory Library.Runs

inductive ReadCall
  | read (buf : Addr) (count : Word)
  | readv (iov : Addr) (iovcnt : Word)

/-- How the call gets at its buffers, and how many it has. -/
def ReadCall.entry : ReadCall → Mem → Nat → IoVec
  | .read buf count => fun _ _ => ⟨buf,count⟩
  | .readv iov _ => fun m => iovEntry m iov

def ReadCall.iovcnt : ReadCall → Word
  | .read _ _ => 1#32
  | .readv _ iovcnt => iovcnt

/-- The answers of a host that splits the stream and fails at its end only. -/
def splitAnswers (split : Nat → Nat) (i : Nat) (file : List Byte) : ReadAnswer :=
  if file = [] then .fails else .delivers (max 1 (split i))

/-- A call on fd 0 and where the host splits the stream for its buffers. -/
structure StdinCall where
  call : ReadCall
  split : Nat → Nat

def callStdin (s : Process) (c : StdinCall) : Scattered :=
  match c.call with
  | .read buf count => sysRead (splitAnswers c.split) s 0#32 buf count
  | .readv iov iovcnt => sysReadv (splitAnswers c.split) s 0#32 iov iovcnt

def stdinStep (s : Process) (c : StdinCall) : Process := (callStdin s c).process

def Process.input (s : Process) : List Byte := s.files s.params.standardInput

/-- The buffers of the call, each as the array has it when its turn comes. -/
def StdinCall.buffers (c : StdinCall) (s : Process) : List IoVec :=
  fetched s.params.standardInput (splitAnswers c.split) c.call.entry c.call.iovcnt.toNat 0 s

/-- Standard input is open. -/
def Open (s : Process) : Prop := s.params.standardInput ≠ 0#32

theorem callStdin_eq (s : Process) (c : StdinCall) : callStdin s c =
    readvFrom (splitAnswers c.split) s 0#32 c.call.entry c.call.iovcnt := by
  obtain ⟨call,split⟩ := c
  cases call <;> rfl

theorem callStdin_spec {s : Process} (ho : Open s) (c : StdinCall) :
    ((callStdin s c).result = if readRefused (splitAnswers c.split) (c.buffers s) 0 s.input then -1
      else (BitVec.ofNat 32 (scattered (splitAnswers c.split) (c.buffers s) 0 s.input)).toInt) ∧
    ∃ mem', stdinStep s c = s.advance s.params.standardInput
      (scattered (splitAnswers c.split) (c.buffers s) 0 s.input) mem' := by
  have hfile : translateFile s 0#32 = s.params.standardInput := if_pos rfl
  rw [stdinStep, callStdin_eq, readvFrom, hfile, if_neg ho, readvLoop_spec]
  simp only [BitVec.zero_add]
  exact ⟨rfl,_,rfl⟩

theorem Open.step {s : Process} (ho : Open s) (c : StdinCall) : Open (stdinStep s c) := by
  obtain ⟨_,mem',hrun⟩ := callStdin_spec ho c
  rw [hrun]
  exact ho

section sample

end sample
end Line2.Lnexec
