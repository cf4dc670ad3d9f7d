import Mathlib.Data.List.Basic

/-! Runs of a deterministic step function. Whatever the environment decides is
part of the action, so a run is a start state and a list of actions. -/
namespace Line2.Library.Runs
variable {σ α : Type*}

/-- `P` holds at every step of the run: of the state before it and its action. -/
def EachStep (step : σ → α → σ) (P : σ → α → Prop) : σ → List α → Prop
  | _, [] => True
  | s, a :: as => P s a ∧ EachStep step P (step s a) as

/-- `I` holds in every state of the run, the first and the last included. -/
def Always (step : σ → α → σ) (I : σ → Prop) : σ → List α → Prop
  | s, [] => I s
  | s, a :: as => I s ∧ Always step I (step s a) as

variable {step : σ → α → σ} {I : σ → Prop} {L P C : σ → α → Prop} {s : σ} {as : List α}

theorem EachStep.mono (h : ∀ s a, L s a → P s a) (hs : EachStep step L s as) :
    EachStep step P s as := by
  induction as generalizing s with
  | nil => trivial
  | cons a as ih =>
    obtain ⟨ha,has⟩ := hs
    exact ⟨h s a ha,ih has⟩

theorem EachStep.and (hl : EachStep step L s as) (hp : EachStep step P s as) :
    EachStep step (fun s a => L s a ∧ P s a) s as := by
  induction as generalizing s with
  | nil => trivial
  | cons a as ih => exact ⟨⟨hl.1,hp.1⟩,ih hl.2 hp.2⟩

/-- What all the actions have, every step has. -/
theorem EachStep.of_forall {A : α → Prop} (h : ∀ a ∈ as, A a) (s : σ) :
    EachStep step (fun _ a => A a) s as := by
  induction as generalizing s with
  | nil => trivial
  | cons a as ih =>
    exact ⟨h a List.mem_cons_self,ih (fun b hb => h b (List.mem_cons_of_mem _ hb)) _⟩

/-- The step rule: what the invariant and legality give of one step holds of all. -/
theorem each_of_step (hstep : ∀ s a, I s → L s a → I (step s a))
    (h : ∀ s a, I s → L s a → P s a) (hs : I s) (hl : EachStep step L s as) :
    EachStep step P s as := by
  induction as generalizing s with
  | nil => trivial
  | cons a as ih =>
    obtain ⟨ha,has⟩ := hl
    exact ⟨h s a hs ha,ih (hstep s a hs ha) has⟩

/-- Exactness of a step condition. While the run behaves, the invariant is kept
and one step behaves iff it meets `C`; so the run behaves iff all its steps do. -/
theorem each_iff (hiff : ∀ s a, I s → L s a → (P s a ↔ C s a))
    (hstep : ∀ s a, I s → L s a → C s a → I (step s a)) (hs : I s)
    (hl : EachStep step L s as) : EachStep step P s as ↔ EachStep step C s as := by
  induction as generalizing s with
  | nil => exact Iff.rfl
  | cons a as ih =>
    obtain ⟨ha,has⟩ := hl
    constructor
    · rintro ⟨hp,hps⟩
      have hc := (hiff s a hs ha).mp hp
      exact ⟨hc,(ih (hstep s a hs ha hc) has).mp hps⟩
    · rintro ⟨hc,hcs⟩
      exact ⟨(hiff s a hs ha).mpr hc,(ih (hstep s a hs ha hc) has).mpr hcs⟩

/-- What legal steps keep, holds in every state of a legal run. -/
theorem always_of_step (hstep : ∀ s a, I s → L s a → I (step s a)) (hs : I s)
    (hl : EachStep step L s as) : Always step I s as := by
  induction as generalizing s with
  | nil => exact hs
  | cons a as ih =>
    obtain ⟨ha,has⟩ := hl
    exact ⟨hs,ih (hstep s a hs ha) has⟩

theorem Always.first {Q : σ → Prop} (h : Always step Q s as) : Q s := by
  cases as with
  | nil => exact h
  | cons a as => exact h.1

theorem Always.mono {Q : σ → Prop} (h : Always step I s as) (hQ : ∀ s, I s → Q s) :
    Always step Q s as := by
  induction as generalizing s with
  | nil => exact hQ s h
  | cons a as ih => exact ⟨hQ s h.1,ih h.2⟩

/-- What the states have, the actions taken in them have. -/
theorem Always.each {Q : σ → Prop} (h : Always step Q s as) (hP : ∀ s a, Q s → P s a) :
    EachStep step P s as := by
  induction as generalizing s with
  | nil => trivial
  | cons a as ih =>
    obtain ⟨hq,hrest⟩ := h
    exact ⟨hP s a hq,ih hrest⟩

/-- The same for a property of the states: it holds throughout iff each step,
taken where it holds, meets the condition. -/
theorem always_iff {Q : σ → Prop}
    (hiff : ∀ s a, I s → Q s → L s a → (Q (step s a) ↔ C s a))
    (hstep : ∀ s a, I s → Q s → L s a → I (step s a)) (hs : I s) (hq : Q s)
    (hl : EachStep step L s as) : Always step Q s as ↔ EachStep step C s as := by
  induction as generalizing s with
  | nil => exact iff_of_true hq trivial
  | cons a as ih =>
    obtain ⟨ha,has⟩ := hl
    have hn := hstep s a hs hq ha
    constructor
    · rintro ⟨_,hrest⟩
      have hq' : Q (step s a) := hrest.first
      exact ⟨(hiff s a hs hq ha).mp hq',(ih hn hq' has).mp hrest⟩
    · rintro ⟨hc,hcs⟩
      have hq' := (hiff s a hs hq ha).mpr hc
      exact ⟨hq,(ih hn hq' has).mpr hcs⟩

end Line2.Library.Runs
