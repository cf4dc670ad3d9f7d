import Line2.Library.Runs

/-! Runs against other runs: a deterministic machine simulated by a step relation, and a
component seen in the runs of the whole. -/
namespace Line2.Library.Simulation
open Runs
variable {σ τ α β : Type*}

/-- A run beside one of a step relation, along labels of its actions: the two stand in `R` at
the start and after each step. -/
inductive Tracks (step : σ → α → σ) (T : τ → β → τ → Prop) (label : α → β) (R : σ → τ → Prop) :
    σ → τ → List α → Prop
  | nil {s : σ} {t : τ} (related : R s t) : Tracks step T label R s t []
  | cons {s : σ} {t u : τ} {a : α} {as : List α} (related : R s t) (head : T t (label a) u)
    (tail : Tracks step T label R (step s a) u as) : Tracks step T label R s t (a :: as)

/-- What a component does in a run of the whole, where `view` tells which of its actions a
step brings about, if any. -/
def events (step : σ → α → σ) (view : σ → α → Option β) : σ → List α → List β
  | _, [] => []
  | s, a :: as => (view s a).toList ++ events step view (step s a) as

/-- What the steps of a run bring, one after another. -/
def collected (step : σ → α → σ) (gain : σ → α → List β) : σ → List α → List β
  | _, [] => []
  | s, a :: as => gain s a ++ collected step gain (step s a) as

section simulation
variable {step : σ → α → σ} {T : τ → β → τ → Prop} {label : α → β} {R : σ → τ → Prop}
  {L : σ → α → Prop} {s : σ} {t : τ} {as : List α}

/-- Forward simulation: if every legal step is matched, a legal run is, step by step. -/
theorem tracks_of_simulates
    (h : ∀ s t a, R s t → L s a → ∃ u, T t (label a) u ∧ R (step s a) u)
    (hr : R s t) (hl : EachStep step L s as) : Tracks step T label R s t as := by
  induction as generalizing s t with
  | nil => exact .nil hr
  | cons a as ih =>
    obtain ⟨ha,has⟩ := hl
    obtain ⟨u,hu,hru⟩ := h s t a hr ha
    exact .cons hr hu (ih hru has)

/-- Two runs on the same actions: what every legal step keeps between them, the runs keep. -/
theorem related_foldl {Q : σ → σ → Prop}
    (h : ∀ s s' a, Q s s' → L s a → Q (step s a) (step s' a)) {s' : σ} (hq : Q s s')
    (hl : EachStep step L s as) : Q (as.foldl step s) (as.foldl step s') := by
  induction as generalizing s s' with
  | nil => exact hq
  | cons a as ih =>
    obtain ⟨ha,has⟩ := hl
    exact ih (h s s' a hq ha) has

end simulation

section component
variable {step : σ → α → σ} {view : σ → α → Option β} {f : σ → τ} {act : τ → β → τ}
  {L : σ → α → Prop} {P : τ → β → Prop} {I : τ → Prop} {s : σ} {as : List α}

/-- Legality of the component's run is legality of its part in every step. -/
theorem each_events
    (h : ∀ s a, L s a → f (step s a) = (view s a).elim (f s) (act (f s)))
    (hp : ∀ s a b, L s a → view s a = some b → P (f s) b) (hl : EachStep step L s as) :
    EachStep act P (f s) (events step view s as) := by
  induction as generalizing s with
  | nil => trivial
  | cons a as ih =>
    obtain ⟨ha,has⟩ := hl
    have hrest := ih has
    rw [h s a ha] at hrest
    rw [events]
    cases hv : view s a with
    | none =>
      rw [hv] at hrest
      exact hrest
    | some b =>
      rw [hv] at hrest
      exact ⟨hp s a b ha hv,hrest⟩

/-- The component has a property throughout its own run iff it has it throughout the run of
the whole. -/
theorem always_component
    (h : ∀ s a, L s a → f (step s a) = (view s a).elim (f s) (act (f s)))
    (hl : EachStep step L s as) : Always step (fun s => I (f s)) s as ↔
      Always act I (f s) (events step view s as) := by
  induction as generalizing s with
  | nil => exact Iff.rfl
  | cons a as ih =>
    obtain ⟨ha,has⟩ := hl
    have hstep := h s a ha
    have hrest := ih has
    rw [hstep] at hrest
    cases hv : view s a with
    | none =>
      rw [hv] at hrest
      rw [events, hv]
      exact ⟨fun hi => hrest.mp hi.2,fun hi => ⟨hi.first,hrest.mpr hi⟩⟩
    | some b =>
      rw [hv] at hrest
      rw [events, hv]
      exact and_congr_right fun _ => hrest

/-- Bookkeeping on the side makes no difference to what is kept. -/
theorem always_image {stepGhost : σ → β → σ} {f : σ → τ}
    (h : ∀ s b, f (stepGhost s b) = act (f s) b) (bs : List β) (s : σ) :
    Always stepGhost (fun s => I (f s)) s bs ↔ Always act I (f s) bs := by
  induction bs generalizing s with
  | nil => exact Iff.rfl
  | cons b bs ih =>
    have hrest := ih (stepGhost s b)
    rw [h s b] at hrest
    exact and_congr_right fun _ => hrest

/-- Nor to what each step has. -/
theorem each_image {stepGhost : σ → β → σ} {f : σ → τ}
    (h : ∀ s b, f (stepGhost s b) = act (f s) b) (bs : List β) (s : σ) :
    EachStep stepGhost (fun s b => P (f s) b) s bs ↔ EachStep act P (f s) bs := by
  induction bs generalizing s with
  | nil => exact Iff.rfl
  | cons b bs ih =>
    have hrest := ih (stepGhost s b)
    rw [h s b] at hrest
    exact and_congr_right fun _ => hrest

end component

section collection
variable {step : σ → α → σ} {gain : σ → α → List β} {f : σ → List β} {L : σ → α → Prop}
  {s : σ} {as : List α}

/-- What is so of the gain of every step. -/
theorem collected_forall {P : β → Prop} {g : σ → α → List β}
    (h : ∀ s a, L s a → ∀ x ∈ g s a, P x) (hl : EachStep step L s as) :
    ∀ x ∈ collected step g s as, P x := by
  induction as generalizing s with
  | nil => exact List.forall_mem_nil _
  | cons a as ih =>
    obtain ⟨ha,has⟩ := hl
    exact List.forall_mem_append.mpr ⟨h s a ha,ih has⟩

end collection

section taking
variable {step : σ → α → σ} {gain : σ → α → List β} {A : σ → β → Prop} {L : σ → α → Prop}
  {s : σ} {as : List α}

/-- What is taken and never given back: a run takes nothing that was taken before it and
nothing twice. -/
theorem collected_once (h : ∀ s a x, L s a → (A (step s a) x ↔ A s x ∨ x ∈ gain s a))
    (hfresh : ∀ s a x, L s a → x ∈ gain s a → ¬ A s x)
    (honce : ∀ s a, L s a → (gain s a).Nodup) (hl : EachStep step L s as) :
    (collected step gain s as).Nodup ∧ (∀ x ∈ collected step gain s as, ¬ A s x) ∧
    ∀ x, A (as.foldl step s) x ↔ A s x ∨ x ∈ collected step gain s as := by
  induction as generalizing s with
  | nil => exact ⟨List.nodup_nil,List.forall_mem_nil _,fun x => (or_iff_left List.not_mem_nil).symm⟩
  | cons a as ih =>
    obtain ⟨ha,has⟩ := hl
    obtain ⟨hnodup,hnew,hfinal⟩ := ih has
    have hlater : ∀ x ∈ collected step gain (step s a) as, ¬ A s x ∧ x ∉ gain s a :=
      fun x hx => not_or.mp (mt (h s a x ha).mpr (hnew x hx))
    refine ⟨?_,?_,?_⟩
    · refine List.nodup_append.mpr ⟨honce s a ha,hnodup,?_⟩
      rintro x hx y hy rfl
      exact (hlater x hy).2 hx
    · intro x hx
      rcases List.mem_append.mp hx with hx | hx
      · exact hfresh s a x ha hx
      · exact (hlater x hx).1
    · intro x
      rw [List.foldl_cons, hfinal x, h s a x ha, collected, List.mem_append, or_assoc]

end taking
end Line2.Library.Simulation
