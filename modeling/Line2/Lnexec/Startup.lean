import Line2.ElfLoader.Constructor
import Line2.Ia32.Assembly
import Line2.Library.ProcessImage

/-! How the guest is started. main loads the file that its first argument names, and
start pushes three zeros and jumps to the entry point. -/
namespace Line2.Lnexec
open Library.Memory Library.Stack Library.ProcessImage Ia32 ElfLoader

/-- `ElfFile::GetEntryPoint` -/
def getEntryPoint (elf : ElfFile) : Addr := elf.header.e_entry

/-- The inline assembly of start, over whatever the compiled code left in the machine. -/
def start (entry : Addr) (s : State) : State :=
  let (zero,eflags) := Alu.xor.result s.cpu.eax s.cpu.eax s.cpu.eflags
  let zeroed : State := {s with cpu := {s.cpu with eax := zero, eflags := eflags}}
  let pushed := Asm.run [.push .eax,.push .eax,.push .eax] zeroed
  {pushed with cpu := {pushed.cpu with eax := entry, eip := entry}}

/-- How the host answers main: the bytes of the file that a path names, the reads of the
constructor, the call of Map, and the machine as compiled code has it when it comes to
start's own instructions, over the memory that Map left. -/
structure Host where
  openFile : List Byte → Option (List Byte)
  read : List Byte → Reader
  env : Surroundings
  map : MapAnswers
  mem : Mem
  machine : Mapped → State

/-- How a run of main ends, or the state it jumps to the entry point in. -/
inductive Outcome
  | usage
  | failed
  | jumped (s : State)

def main (host : Host) : List (List Byte) → Outcome
  | _ :: path :: _ =>
    match host.openFile path with
    | none => .failed
    | some file =>
      match openElfFileAs (host.read file) host.env file with
      | none => .failed
      | some executable =>
        let mapped := executable.map host.map host.mem
        if mapped.returned then .jumped (start (getEntryPoint executable) (host.machine mapped))
        else .failed
  | _ => .usage

/-- An i386 process start: an image of the arguments in words that the loader wrote, and
no function to call at exit. -/
structure ProcessStart (written : Addr → Prop) (args : List (List Byte)) (s : State) : Prop where
  image : ∃ i : Image, i.At written s.mem s.cpu.esp args
  edx : s.cpu.edx = 0#32

/-- start leaves three zeros at the stack pointer; the rest of memory, and EDX, stay
as the host had them. -/
theorem start_spec (entry : Addr) (s : State) :
    (start entry s).cpu.eip = entry ∧ (start entry s).cpu.edx = s.cpu.edx ∧
    (start entry s).cpu.esp = s.cpu.esp - 12#32 ∧
    Words (start entry s).mem (s.cpu.esp - 12#32) [0#32,0#32,0#32] ∧
    ∀ x, ¬ Within (s.cpu.esp - 12#32) 12 x → (start entry s).mem x = s.mem x := by
  let zeroed : State := {s with cpu := {s.cpu with
    eax := s.cpu.eax ^^^ s.cpu.eax
    eflags := logicFlags (s.cpu.eax ^^^ s.cpu.eax) s.cpu.eflags}}
  obtain ⟨hcpu,hwords,hmem⟩ := Asm.run_pushes [.eax,.eax,.eax] (by decide) zeroed [] trivial
    (by decide)
  have hesp : (Asm.run ([.eax,.eax,.eax].map Asm.push) zeroed).cpu.esp = s.cpu.esp - 12#32 := by
    rw [hcpu]
    rfl
  have hzero : zeroed.cpu.get .eax = 0#32 := BitVec.xor_self
  simp only [List.map_cons, List.map_nil, hzero] at hwords
  refine ⟨rfl,rfl,hesp,?_,?_⟩
  · rw [← hesp]
    exact hwords
  · intro x hx
    rw [← hesp] at hx
    exact hmem x hx

/-- The guest takes for its auxiliary vector what the host's stack holds: the walk over
the three zeros ends where the walk from the host's stack pointer does. -/
theorem start_walk (entry : Addr) (s : State) {n : Nat} (hpos : 0 < n)
    (hn : 8 * n + 12 ≤ 2^32) :
    startupWalk (start entry s).mem n (start entry s).cpu.esp = skipPairs s.mem n s.cpu.esp := by
  obtain ⟨-,-,hesp,hwords,hmem⟩ := start_spec entry s
  obtain ⟨hargc,_,henvp,_⟩ := hwords
  have hend : Words (start entry s).mem (s.cpu.esp - 12#32 + 4#32 + 4#32) ([] ++ [0#32]) :=
    ⟨henvp,trivial⟩
  have hskip := skipWords_list hend (List.forall_mem_nil _) hpos
  have hstart : s.cpu.esp - 12#32 + 4#32 + 4#32 * 0#32 + 4#32 =
      s.cpu.esp - 12#32 + 4#32 + 4#32 := by bv_omega
  have hafter : s.cpu.esp - 12#32 + 4#32 + 4#32 + BitVec.ofNat 32 (4 * (0 + 1)) = s.cpu.esp := by
    bv_omega
  rw [startupWalk, hesp, hargc, hstart, hskip, Option.bind_some, List.length_nil, hafter]
  apply skipPairs_congr
  intro k hk
  apply read32_congr
  intro x hx
  apply hmem
  simp only [Within] at *
  bv_omega

/-- The count is zero, and a process has at least the argument that names it. -/
theorem start_no_image (entry : Addr) (s : State) (written : Addr → Prop) (path : List Byte)
    (args : List (List Byte)) : ¬ ProcessStart written (path :: args) (start entry s) := by
  rintro ⟨⟨i,hat⟩,_⟩
  obtain ⟨-,-,hesp,hzeros,-⟩ := start_spec entry s
  obtain ⟨hcount,_⟩ := (words_append ..).mp hat.words
  have hargc : read32 (start entry s).mem (start entry s).cpu.esp =
      BitVec.ofNat 32 i.argv.length := hcount.1
  have hlen : i.argv.length = args.length + 1 := hat.strings.length_eq
  have hfits := hat.fits
  rw [i.words_length] at hfits
  rw [hesp, hzeros.1, hlen] at hargc
  bv_omega

/-- Whatever the command line, the file and the host's stack and registers, the state
in which start jumps is no process start. -/
theorem jump_no_processStart (host : Host) (lnexec path : List Byte) (args : List (List Byte))
    (written : Addr → Prop) (s : State) (h : main host (lnexec :: path :: args) = .jumped s) :
    ¬ ProcessStart written (path :: args) s := by
  simp only [main] at h
  split at h
  · cases h
  · split at h
    · cases h
    · split at h
      · obtain rfl := Outcome.jumped.inj h
        exact start_no_image _ _ written path args
      · cases h

section sample

/-- A host that opens a file of one segment, at any path, and grants all that is asked. -/
def oneSegmentHost : Host where
  openFile := fun _ => some (tinyFile 8#32)
  read := fun file _ => readFromFile file
  env := nowhere
  map := grants
  mem := fun _ => 0#8
  machine := fun mapped => ⟨⟨1#32,2#32,3#32,4#32,0x12ff00#32,5#32,6#32,7#32,8#32,2#32⟩,mapped.mem⟩

/-- The state its run of main jumps in. -/
def oneSegmentJump : State :=
  start 0#32 (oneSegmentHost.machine ((tinyElf 8#32).map grants fun _ => 0#8))

theorem oneSegment_no_processStart : ¬ ProcessStart (Within (0x12ff00#32 - 12#32) 12) [[0x61#8]]
    oneSegmentJump :=
  jump_no_processStart oneSegmentHost [] [0x61#8] [] _ oneSegmentJump rfl

/-- A run of one argument: EDX is the host's as well. -/
theorem oneSegment_jumps : ∃ s, main oneSegmentHost [[],[0x61#8]] = .jumped s ∧
    s.cpu.edx = 3#32 ∧ ¬ ProcessStart (Within s.cpu.esp 12) [[0x61#8]] s :=
  ⟨oneSegmentJump,rfl,rfl,start_no_image _ _ _ _ _⟩

end sample
end Line2.Lnexec
