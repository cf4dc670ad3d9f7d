import Line2.Ia32.Processor
import Line2.Library.Stack

/-! Hand-written stack code, executed instruction by instruction at its own
addresses. Straight-line parts run as a fold; a return goes wherever the word
at ESP says. -/
namespace Line2.Ia32
open Library.Memory Library.Stack

inductive Asm
  | push (r : Reg)
  | pop (r : Reg)
  | addImm8 (r : Reg) (n : Word)
  | call (target : Addr)
  | ret

namespace Asm

/-- Encoded length in bytes. -/
def size : Asm → Nat
  | push _ => 1 | pop _ => 1 | addImm8 _ _ => 3 | call _ => 5 | ret => 1

def Straight : Asm → Prop
  | push _ => True | pop _ => True | addImm8 _ _ => True | call _ => False | ret => False

/-- PUSH stores the register's old value, also for ESP; POP ESP keeps the loaded one. -/
def exec (s : State) : Asm → State
  | push r =>
    { cpu := { s.cpu with esp := s.cpu.esp - 4#32, eip := s.cpu.eip + 1#32 }
      mem := write32 s.mem (s.cpu.esp - 4#32) (s.cpu.get r) }
  | pop r =>
    let popped : Cpu := { s.cpu with esp := s.cpu.esp + 4#32, eip := s.cpu.eip + 1#32 }
    { s with cpu := popped.set (read32 s.mem s.cpu.esp) r }
  | addImm8 r n =>
    let flagged : Cpu := { s.cpu with
      eip := s.cpu.eip + 3#32
      eflags := addFlags (s.cpu.get r) n false s.cpu.eflags }
    { s with cpu := flagged.set (s.cpu.get r + n) r }
  | call target =>
    { cpu := { s.cpu with esp := s.cpu.esp - 4#32, eip := target }
      mem := write32 s.mem (s.cpu.esp - 4#32) (s.cpu.eip + 5#32) }
  | ret =>
    { s with cpu := { s.cpu with esp := s.cpu.esp + 4#32, eip := read32 s.mem s.cpu.esp } }

def codeSize : List Asm → Nat
  | [] => 0
  | i :: code => i.size + codeSize code

/-- The instruction that starts `k` bytes into the code, if one does. -/
def fetch : List Asm → Nat → Option Asm
  | [], _ => none
  | i :: is, k => if k = 0 then some i else if i.size ≤ k then fetch is (k - i.size) else none

/-- One processor step in the code that lies at `base`. -/
def step (base : Addr) (code : List Asm) (s : State) : Option State :=
  (fetch code (s.cpu.eip - base).toNat).map (exec s)

def run (code : List Asm) (s : State) : State := code.foldl exec s

theorem size_pos (i : Asm) : 0 < i.size := by cases i <;> simp [size]

@[simp] theorem codeSize_cons (i : Asm) (is : List Asm) :
    codeSize (i :: is) = i.size + codeSize is := rfl

theorem codeSize_append (is js : List Asm) : codeSize (is ++ js) = codeSize is + codeSize js := by
  induction is with
  | nil => exact (Nat.zero_add _).symm
  | cons i is ih => rw [List.cons_append, codeSize_cons, codeSize_cons, ih, Nat.add_assoc]

theorem fetch_append (pre post : List Asm) (i : Asm) :
    fetch (pre ++ i :: post) (codeSize pre) = some i := by
  induction pre with
  | nil => simp [fetch, codeSize]
  | cons j pre ih =>
    have hj := j.size_pos
    simp only [List.cons_append, fetch, codeSize_cons]
    rw [if_neg (by omega), if_pos (by omega), Nat.add_sub_cancel_left, ih]

/-- The step taken when EIP has passed exactly the instructions `pre`. -/
theorem step_at (base : Addr) (pre post : List Asm) (i : Asm) (s : State)
    (hsize : codeSize pre < 2^32) (heip : s.cpu.eip = base + BitVec.ofNat 32 (codeSize pre)) :
    step base (pre ++ i :: post) s = some (exec s i) := by
  rw [step, heip, offset_toNat base hsize, fetch_append, Option.map_some]

theorem exec_eip (s : State) (i : Asm) (hi : i.Straight) :
    (exec s i).cpu.eip = s.cpu.eip + BitVec.ofNat 32 i.size := by
  cases i with
  | push r => rfl
  | pop r => simp [exec, size]
  | addImm8 r n => simp [exec, size]
  | call t => exact hi.elim
  | ret => exact hi.elim

theorem run_eip (block : List Asm) (s : State) (hb : ∀ i ∈ block, i.Straight) :
    (run block s).cpu.eip = s.cpu.eip + BitVec.ofNat 32 (codeSize block) := by
  induction block generalizing s with
  | nil => simp [run, codeSize]
  | cons i block ih =>
    rw [run, List.foldl_cons, ← run, ih _ (fun j hj => hb j (List.mem_cons_of_mem _ hj)),
      exec_eip s i (hb i List.mem_cons_self), codeSize_cons, BitVec.ofNat_add, BitVec.add_assoc]

/-- A block of pushes leaves the registers' values below what the stack held,
the first pushed highest, and touches no byte elsewhere. -/
theorem run_pushes (rs : List Reg) (hr : Reg.esp ∉ rs) (s : State) (ws : List Word)
    (hw : Words s.mem s.cpu.esp ws) (hl : 4 * (rs.length + ws.length) ≤ 2^32) :
    let s' := run (rs.map push) s
    s'.cpu = { s.cpu with
      esp := s.cpu.esp - BitVec.ofNat 32 (4 * rs.length)
      eip := s.cpu.eip + BitVec.ofNat 32 rs.length } ∧
    Words s'.mem s'.cpu.esp ((rs.map s.cpu.get).reverse ++ ws) ∧
    ∀ x, ¬ Within s'.cpu.esp (4 * rs.length) x → s'.mem x = s.mem x := by
  induction rs generalizing s ws with
  | nil => exact ⟨by simp [run],hw,fun _ _ => rfl⟩
  | cons r rs ih =>
    simp only [List.length_cons] at hl
    rw [List.mem_cons, not_or] at hr
    have hpush := hw.push (s.cpu.get r) (by omega)
    obtain ⟨hcpu,hwords,hmem⟩ := ih hr.2 (exec s (push r)) (s.cpu.get r :: ws) hpush
      (by simp only [List.length_cons]; omega)
    -- moving ESP and EIP does not change any pushed register
    have hget : rs.map (exec s (push r)).cpu.get = rs.map s.cpu.get := by
      apply List.map_congr_left
      intro q hq
      cases q <;> first | rfl | exact absurd hq hr.2
    have hesp : (run (rs.map push) (exec s (push r))).cpu.esp =
        s.cpu.esp - BitVec.ofNat 32 (4 * (rs.length+1)) := by
      rw [hcpu]
      simp only [exec]
      bv_omega
    simp only [List.map_cons, run, List.foldl_cons, List.length_cons]
    simp only [run] at hcpu hwords hmem hesp
    refine ⟨?_,?_,?_⟩
    · rw [hcpu]
      simp only [exec, Cpu.mk.injEq, true_and, and_true]
      constructor <;> bv_omega
    · rw [hget] at hwords
      simpa [List.reverse_cons, List.append_assoc] using hwords
    · intro x hx
      rw [hmem x (by rw [hesp] at *; simp only [Within] at *; bv_omega)]
      apply write32_outside
      rw [hesp] at hx
      simp only [Within] at *
      bv_omega

end Asm
end Line2.Ia32
