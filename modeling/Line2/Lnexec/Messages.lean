import Line2.Library.CString
import Line2.Lnexec.HandlerPatterns
import Line2.Lnexec.SyscallDispatch

/-! What lnexec prints about its own work. printf collects it in the buffer of stdout, and
the C runtime puts that out on the standard output when it sees fit, so these texts are kept
apart from what NtWriteFile takes. -/
namespace Line2.Lnexec
open Library.Memory Library.CString Ia32

/-- `%d` -/
def printedD (v : Word) : List Byte := literal (toString v.toInt)

/-- `%x` -/
def printedX (v : Word) : List Byte := literal (String.ofList (Nat.toDigits 16 v.toNat))

/-- `%p`: eight digits, in capitals. -/
def printedP (v : Word) : List Byte :=
  let digits := (Nat.toDigits 16 v.toNat).map Char.toUpper
  literal (String.ofList (List.replicate (8 - digits.length) '0' ++ digits))

/-- The stubs pass `arg6` for the fifth `%p` as well. -/
def stubCalled (name : String) (args : SysArgs) : List Byte :=
  let values := [args.arg1,args.arg2,args.arg3,args.arg4,args.arg6,args.arg6]
  literal name ++ literal ": stub called (" ++
    List.intercalate (literal ", ") (values.map printedP) ++ literal ")\n"

def openCalled (name : List Byte) (flags mode : Word) : List Byte :=
  literal "sys_open(\"" ++ name ++ literal "\", " ++ printedX flags ++ literal ", " ++
    printedX mode ++ literal "): stub\n"

def segmentMade (d : LinuxUserDesc) : List Byte :=
  literal "sys_set_thread_area: segment " ++ printedD d.entry_number ++ literal ": base = 0x" ++
    printedP d.base_addr ++ literal ", limit = 0x" ++ printedP d.limit ++ literal "\n"

def gsWritten (Address Data : Word) : List Byte :=
  literal "write GS:[" ++ printedP Address ++ literal "] = " ++ printedD Data ++ literal "\n"

def gsRead (Address Result : Word) : List Byte :=
  literal "read GS:[" ++ printedP Address ++ literal "] = " ++ printedD Result ++ literal "\n"

example : stubCalled "sys_fork" ⟨0x1a#32,2#32,3#32,4#32,5#32,6#32⟩ =
    literal ("sys_fork: stub called " ++
      "(0000001A, 00000002, 00000003, 00000004, 00000006, 00000006)\n") := by decide

instance decidableCodeAt (s : State) : ∀ k bs, Decidable (CodeAt s k bs)
  | _, [] => .isTrue trivial
  | k, _ :: bs =>
    have := decidableCodeAt s (k + 1) bs
    inferInstanceAs (Decidable (_ ∧ _))

instance (p : Pattern) (s : State) : Decidable (p.Matches s) := decidableCodeAt s 0 p.bytes

def Pattern.all : List Pattern := [.int80,.movGs,.xorEdx,.xorEcx,.xorEax,.loadMoffs,.storeMoffs,
  .storeImm,.cmpImm,.storeEcxAtEdx,.storeEdxAtEax,.loadEdiAtEdx,.loadEaxAtEax]

/-- What the handler prints at a pattern, with this base in GS: a load prints the dword that
it got, a store the one that it is about to put there. -/
def Pattern.message (s : State) (base : Option Word) (p : Pattern) : List Byte :=
  let Address := p.address s
  match p with
  | .int80 | .movGs => []
  | .storeMoffs => gsWritten Address s.cpu.eax
  | .storeImm => gsWritten Address (pcDword s 3)
  | .storeEcxAtEdx => gsWritten Address s.cpu.ecx
  | .storeEdxAtEax => gsWritten Address s.cpu.edx
  | .xorEdx | .xorEcx | .xorEax | .loadMoffs | .cmpImm | .loadEdiAtEdx | .loadEaxAtEax =>
    base.elim [] fun b => gsRead Address (read32 s.mem (b + Address))

/-- What GSReadDword and GSWriteDWord print in the course of an exception. -/
def exceptionPrinted (s : State) (base : Option Word) : List Byte :=
  (Pattern.all.find? fun p => p.Matches s).elim [] (Pattern.message s base)

theorem exceptionPrinted_at {s : State} {p : Pattern} (h : p.Matches s) (base : Option Word) :
    exceptionPrinted s base = p.message s base := by
  have hfind : Pattern.all.find? (fun p => p.Matches s) = some p := by
    cases hf : Pattern.all.find? fun p => p.Matches s with
    | none =>
      have hno := List.find?_eq_none.mp hf p (by cases p <;> decide)
      exact absurd h (by simpa using hno)
    | some q =>
      have hq : q.Matches s := by simpa using List.find?_some hf
      rw [hq.unique h]
  rw [exceptionPrinted, hfind, Option.elim_some]

theorem exceptionPrinted_unmatched {s : State} (h : ∀ p : Pattern, ¬ p.Matches s)
    (base : Option Word) : exceptionPrinted s base = [] := by
  have hfind : Pattern.all.find? (fun p => p.Matches s) = none :=
    List.find?_eq_none.mpr fun p _ => by simpa using h p
  rw [exceptionPrinted, hfind, Option.elim_none]

end Line2.Lnexec
