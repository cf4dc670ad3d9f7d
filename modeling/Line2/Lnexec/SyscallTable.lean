import Line2.Lnexec.Messages
import Line2.Lnexec.SysTime
import Line2.Lnexec.SysUname
import Line2.Lnexec.SyscallDispatch
import Line2.Lnexec.ThreadArea
import Line2.Lnexec.VectoredCalls
import Line2.Lnexec.SysBrk

/-! What stands behind the table: thirteen functions of their own, with the state they
keep between calls, and for every other name the stub of `stubs.c`. -/
namespace Line2.Lnexec
open Library.Memory Library.CString

def LINUX_ENOSYS : Int := 38

/-- The statics of sys_brk.c, the handles of the PEB, for each handle what has not been
read yet and what NtWriteFile took, and what printf was given. -/
structure Kernel where
  brk : Break
  params : ProcessParameters
  files : Handle → List Byte
  output : Handle → List Byte
  printed : List Byte

/-- All that the functions keep, with what set_thread_area keeps of the thread. -/
structure Services (τ : Type) where
  kernel : Kernel
  thread : τ

/-- What the host decides in the course of a call. -/
structure HostAnswers where
  reads : Nat → List Byte → ReadAnswer
  writes : Nat → WriteAnswer
  reservation : Addr
  tlsIndex : Word
  Ft : FileTime
  bias : BitVec 64
  stale : Word

/-- A function of the table by its effect: the int in EAX, what it keeps, and memory. -/
abbrev Service (τ : Type) :=
  HostAnswers → Services τ → SysArgs → Mem → (Word × Services τ) × Mem

/-- set_thread_area by what it keeps of the thread. -/
abbrev AreaService (τ : Type) := HostAnswers → τ → Addr → Mem → (Word × τ) × Mem

/-- The process as sys_read and sys_writev see it. -/
def Kernel.process (k : Kernel) (m : Mem) : Process := ⟨k.params,k.files,m⟩

/-- The functions that the names are linked to. -/
inductive SysFunction
  | sysRead | sysOpen | sysClose | sysTime | sysBrk | sysUname | sysReadv | sysWritev
  | sysGetuid32 | sysGetgid32 | sysGeteuid32 | sysGetegid32 | sysSetThreadArea
  | stub (name : String)
  deriving DecidableEq

/-- The linker's choice: stubs.c defines every name that no other file does. -/
def SysFunction.ofName : String → SysFunction
  | "sys_read" => .sysRead
  | "sys_open" => .sysOpen
  | "sys_close" => .sysClose
  | "sys_time" => .sysTime
  | "sys_brk" => .sysBrk
  | "sys_uname" => .sysUname
  | "sys_readv" => .sysReadv
  | "sys_writev" => .sysWritev
  | "sys_getuid32" => .sysGetuid32
  | "sys_getgid32" => .sysGetgid32
  | "sys_geteuid32" => .sysGeteuid32
  | "sys_getegid32" => .sysGetegid32
  | "sys_set_thread_area" => .sysSetThreadArea
  | name => .stub name

section
variable {τ : Type}

def Services.withFiles (w : Services τ) (files : Handle → List Byte) : Services τ :=
  { w with kernel := { w.kernel with files := files } }

def Services.withBreak (w : Services τ) (brk : Break) : Services τ :=
  { w with kernel := { w.kernel with brk := brk } }

def Services.emit (w : Services τ) (hFile : Handle) (bytes : List Byte) : Services τ :=
  { w with kernel := { w.kernel with
    output := Function.update w.kernel.output hFile (w.kernel.output hFile ++ bytes) } }

def Services.print (w : Services τ) (text : List Byte) : Services τ :=
  { w with kernel := { w.kernel with printed := w.kernel.printed ++ text } }

@[simp] theorem Services.print_nil (w : Services τ) : w.print [] = w := by
  simp [print]

/-- A function that only returns. -/
def returning (result : Int) : Service τ := fun _ w _ m => ((BitVec.ofInt 32 result,w),m)

/-- A function that reads into guest memory. -/
def reading (reads : HostAnswers → SysArgs → Process → Scattered) : Service τ := fun h w args m =>
  let r := reads h args (w.kernel.process m)
  ((BitVec.ofInt 32 r.result,w.withFiles r.process.files),r.process.mem)

/-- sys_open tells of its call and sys_close does nothing, set_thread_area tells of the
descriptor it made, and everybody is root. -/
def SysFunction.serve (area : AreaService τ) : SysFunction → Service τ
  | .sysRead => reading fun h args s => Lnexec.sysRead h.reads s args.arg1 args.arg2 args.arg3
  | .sysReadv => reading fun h args s => Lnexec.sysReadv h.reads s args.arg1 args.arg2 args.arg3
  | .sysWritev => fun h w args m =>
    let s := w.kernel.process m
    let r := Lnexec.sysWritev h.writes s args.arg1 args.arg2 args.arg3
    ((BitVec.ofInt 32 r.1,w.emit (translateFile s args.arg1) r.2),m)
  | .sysTime => fun h w args m =>
    let r := Lnexec.sysTime ⟨args.arg1,h.Ft,h.bias,h.stale⟩ m
    ((BitVec.ofInt 32 r.1,w),r.2)
  | .sysBrk => fun h w args m =>
    let r := Lnexec.sysBrk w.kernel.brk args.arg1 h.reservation
    ((r.1,w.withBreak r.2),m)
  | .sysUname => fun _ w args m =>
    let r := Lnexec.sysUname m args.arg1
    ((BitVec.ofInt 32 r.1,w),r.2)
  | .sysSetThreadArea => fun h w args m =>
    let r := area h w.thread args.arg1 m
    let text := if Exhausted m args.arg1 h.tlsIndex then []
      else segmentMade (readUserDesc r.2 args.arg1)
    ((r.1.1,({ w with thread := r.1.2 }).print text),r.2)
  | .sysOpen => fun _ w args m =>
    ((0#32,w.print (openCalled (stringAt m args.arg1) args.arg2 args.arg3)),m)
  | .sysClose | .sysGetuid32 | .sysGetgid32 | .sysGeteuid32 | .sysGetegid32 => returning 0
  | .stub name => fun _ w args m =>
    ((BitVec.ofInt 32 (-LINUX_ENOSYS),w.print (stubCalled name args)),m)

end

/-- sys_set_thread_area over the TLS, where malloc finds its sixteen bytes. -/
def tlsArea : AreaService Tls := fun h t udesc m =>
  let r := sysSetThreadArea t m udesc h.tlsIndex true
  ((BitVec.ofInt 32 (r.1.toOption.getD 0),r.2.1),r.2.2)

/-- The bytes of guest memory that a call looks at or stores. -/
def SysFunction.touched (f : SysFunction) (h : HostAnswers) (k : Kernel) (args : SysArgs)
    (m : Mem) : Addr → Prop :=
  let s := k.process m
  let hFile := translateFile s args.arg1
  match f with
  | .sysRead => fun x => hFile ≠ 0#32 ∧
    ∃ d, h.reads 0 (s.files hFile) = .delivers d ∧
      Within args.arg2 (answered (s.files hFile) args.arg3 d) x
  | .sysReadv => fun x => hFile ≠ 0#32 ∧
    readvTouched hFile h.reads args.arg2 args.arg3.toNat 0 s x
  | .sysWritev => fun x => hFile ≠ 0#32 ∧ writevTouched h.writes m args.arg2 args.arg3.toNat 0 x
  | .sysTime => fun x => args.arg1 ≠ 0#32 ∧ Within args.arg1 4 x
  | .sysUname => fun x => ∃ field : UtsField, field.Stores args.arg1 x
  | .sysSetThreadArea => Within args.arg1 16
  | .sysOpen => Within args.arg1 ((stringAt m args.arg1).length + 1)
  | _ => fun _ => False

end Line2.Lnexec
