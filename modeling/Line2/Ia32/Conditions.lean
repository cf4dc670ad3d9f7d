import Line2.Ia32.Processor

/-! EFLAGS bit by bit, and what the conditional jumps after a comparison test. -/
namespace Line2.Ia32
open Library.Memory

def Flag.bit : Flag → Nat
  | .cf => 0 | .pf => 2 | .af => 4 | .zf => 6 | .sf => 7 | .of => 11

def flagSet (f : Flag) (eflags : Word) : Bool := eflags.getLsbD f.bit

theorem Flag.mask_bit (f : Flag) (k : Nat) : f.mask.getLsbD k = decide (k = f.bit) := by
  have hmask : f.mask = BitVec.twoPow 32 f.bit := by cases f <;> decide
  have hbit : f.bit < 32 := by cases f <;> decide
  rw [hmask, BitVec.getLsbD_twoPow, decide_eq_true hbit, Bool.true_and]
  exact decide_eq_decide.mpr eq_comm

theorem Flag.bit_inj {f g : Flag} (h : f.bit = g.bit) : f = g := by
  cases f <;> cases g <;> first | rfl | exact absurd h (by decide)

/-- Setting a flag sets its bit and no other. -/
theorem setFlag_bit (f : Flag) (b : Bool) (eflags : Word) (k : Nat) :
    (setFlag f b eflags).getLsbD k = if k = f.bit then b else eflags.getLsbD k := by
  have hbit : f.bit < 32 := by cases f <;> decide
  unfold setFlag
  cases b with
  | true =>
    rw [if_pos rfl, BitVec.getLsbD_or, f.mask_bit]
    split
    · rename_i hk
      simp [hk]
    · rename_i hk
      simp [hk]
  | false =>
    rw [if_neg Bool.false_ne_true, BitVec.getLsbD_and, BitVec.getLsbD_not, f.mask_bit]
    split
    · rename_i hk
      simp [hk]
    · rename_i hk
      rcases Nat.lt_or_ge k 32 with hlt | hge
      · simp [hk, hlt]
      · simp [BitVec.getLsbD_of_ge _ _ hge]

@[simp] theorem flagSet_setFlag_self (f : Flag) (b : Bool) (eflags : Word) :
    flagSet f (setFlag f b eflags) = b :=
  (setFlag_bit f b eflags f.bit).trans (if_pos rfl)

theorem flagSet_setFlag_ne {f g : Flag} (h : g ≠ f) (b : Bool) (eflags : Word) :
    flagSet g (setFlag f b eflags) = flagSet g eflags :=
  (setFlag_bit f b eflags g.bit).trans (if_neg fun hbit => h (Flag.bit_inj hbit))

/-- A bit that is no arithmetic flag's. -/
def OtherBit (k : Nat) : Prop := ∀ f : Flag, k ≠ f.bit

theorem setFlag_other {k : Nat} (h : OtherBit k) (f : Flag) (b : Bool) (eflags : Word) :
    (setFlag f b eflags).getLsbD k = eflags.getLsbD k :=
  (setFlag_bit f b eflags k).trans (if_neg (h f))

section sub
variable (a b eflags : Word)

@[simp] theorem subFlags_cf :
    flagSet .cf (subFlags a b false eflags) = decide (a.toNat < b.toNat) := by
  simp [subFlags]

@[simp] theorem subFlags_zf : flagSet .zf (subFlags a b false eflags) = decide (a = b) := by
  have hzero : (a - b == 0#32) = decide (a = b) := by
    rw [Bool.eq_iff_iff, beq_iff_eq, decide_eq_true_eq]
    constructor
    · intro h
      bv_omega
    · rintro rfl
      exact BitVec.sub_self a
  simpa [subFlags, resultFlags, flagSet_setFlag_ne] using hzero

@[simp] theorem subFlags_sf : flagSet .sf (subFlags a b false eflags) = (a - b).msb := by
  simp [subFlags, resultFlags, flagSet_setFlag_ne]

@[simp] theorem subFlags_of : flagSet .of (subFlags a b false eflags) =
    (a.msb != b.msb && (a - b).msb != a.msb) := by
  simp [subFlags, flagSet_setFlag_ne]

@[simp] theorem subFlags_pf : flagSet .pf (subFlags a b false eflags) = evenParity (a - b) := by
  simp [subFlags, resultFlags, flagSet_setFlag_ne]

end sub

section logic
variable (r eflags : Word)

@[simp] theorem logicFlags_cf : flagSet .cf (logicFlags r eflags) = false := by
  simp [logicFlags]

@[simp] theorem logicFlags_zf : flagSet .zf (logicFlags r eflags) = decide (r = 0#32) := by
  simp only [logicFlags, resultFlags, flagSet_setFlag_ne, ne_eq, reduceCtorEq, not_false_eq_true,
    flagSet_setFlag_self]
  rfl

@[simp] theorem logicFlags_sf : flagSet .sf (logicFlags r eflags) = r.msb := by
  simp [logicFlags, resultFlags, flagSet_setFlag_ne]

@[simp] theorem logicFlags_of : flagSet .of (logicFlags r eflags) = false := by
  simp [logicFlags, flagSet_setFlag_ne]

@[simp] theorem logicFlags_pf : flagSet .pf (logicFlags r eflags) = evenParity r := by
  simp [logicFlags, resultFlags, flagSet_setFlag_ne]

end logic

/-- What a conditional jump looks at: equal, below, below or equal, less, less or
equal, negative. -/
inductive Test
  | e | b | be | l | le | s

def Test.eval (eflags : Word) : Test → Bool
  | .e => flagSet .zf eflags
  | .b => flagSet .cf eflags
  | .be => flagSet .cf eflags || flagSet .zf eflags
  | .l => flagSet .sf eflags != flagSet .of eflags
  | .le => flagSet .zf eflags || flagSet .sf eflags != flagSet .of eflags
  | .s => flagSet .sf eflags

/-- How two operands stand to each other when the test holds of their comparison. -/
def Test.Relates (x y : Word) : Test → Prop
  | .e => x = y
  | .b => x.toNat < y.toNat
  | .be => x.toNat ≤ y.toNat
  | .l => x.toInt < y.toInt
  | .le => x.toInt ≤ y.toInt
  | .s => (x - y).toInt < 0

/-- A condition code: a test or its opposite, as the low bit of the opcode says. -/
structure Condition where
  test : Test
  negated : Bool

def Condition.taken (c : Condition) (eflags : Word) : Bool := c.test.eval eflags != c.negated

def Condition.Relates (c : Condition) (x y : Word) : Prop :=
  if c.negated then ¬ c.test.Relates x y else c.test.Relates x y

/-- SF differs from OF exactly when the first operand is the smaller signed one. -/
private theorem signed_less (x y : Word) :
    ((x - y).msb != (x.msb != y.msb && (x - y).msb != x.msb)) = decide (x.toInt < y.toInt) := by
  have hx := x.isLt
  have hy := y.isLt
  simp only [BitVec.msb_eq_decide, BitVec.toInt_eq_toNat_cond, BitVec.toNat_sub]
  grind

private theorem negative_iff (r : Word) : r.msb = true ↔ r.toInt < 0 := by
  have hr := r.isLt
  rw [BitVec.msb_eq_decide, decide_eq_true_eq, BitVec.toInt_eq_toNat_cond]
  split <;> omega

theorem test_after_cmp (x y eflags : Word) (t : Test) :
    t.eval (subFlags x y false eflags) = true ↔ t.Relates x y := by
  have hunsigned : x = y ↔ x.toNat = y.toNat := ⟨congrArg _,BitVec.eq_of_toNat_eq⟩
  have hsigned : x = y ↔ x.toInt = y.toInt := ⟨congrArg _,BitVec.eq_of_toInt_eq⟩
  cases t with
  | e => simp [Test.eval, Test.Relates]
  | b => simp [Test.eval, Test.Relates]
  | be =>
    simp only [Test.eval, Test.Relates, subFlags_cf, subFlags_zf, Bool.or_eq_true,
      decide_eq_true_eq, hunsigned]
    omega
  | l =>
    simp only [Test.eval, Test.Relates, subFlags_sf, subFlags_of, signed_less, decide_eq_true_eq]
  | le =>
    simp only [Test.eval, Test.Relates, subFlags_zf, subFlags_sf, subFlags_of, signed_less,
      Bool.or_eq_true, decide_eq_true_eq, hsigned]
    omega
  | s =>
    simp only [Test.eval, Test.Relates, subFlags_sf]
    exact negative_iff (x - y)

/-- After a comparison each jump is taken exactly when its relation holds. -/
theorem taken_after_cmp (x y eflags : Word) (c : Condition) :
    c.taken (subFlags x y false eflags) = true ↔ c.Relates x y := by
  obtain ⟨test,negated⟩ := c
  have htest := test_after_cmp x y eflags test
  cases negated with
  | true =>
    simp only [Condition.taken, Condition.Relates, if_true, ← htest]
    simp
  | false =>
    simp only [Condition.taken, Condition.Relates, Bool.false_eq_true, if_false, ← htest]
    simp

end Line2.Ia32
