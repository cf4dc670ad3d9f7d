import Line2.ElfLoader.HandleBalance
import Line2.Library.Runs
import Mathlib.Logic.Function.Basic

/-! Handle wrappers in any use. `operator &` closes what the object holds and hands out
the address of a member that still has the value, so a call that then fails leaves it
there. When does an object come to hold a closed handle? -/
namespace Line2.ElfLoader
open Library.Memory Library.Ledger Library.Runs

/-- An object with its history: whether NtClose has had its value since that was put
there, or had already had it then. -/
structure Held where
  object : NtHandle
  closed : Bool

/-- The objects, in the order of construction, and the handle values that were closed and
that the system has not handed out anew. -/
structure Wrappers where
  objects : List Held
  closed : Handle → Bool

/-- What a program does with its objects. `answer` is the fresh handle that the system
call stores, or none where it fails and stores nothing. -/
inductive HandleAction
  | default
  | fromHandle (h : Handle)
  | copy (i : Nat) (answer : Option Handle)
  | address (i : Nat) (answer : Option Handle)
  | convert (i : Nat)

/-- NtClose reaches every object that holds the value. -/
def Held.see (o : Held) : HandleEvent → Held
  | .acquired _ => o
  | .released h => ⟨o.object,o.closed || o.object.m_Handle = h⟩

def Wrappers.see (s : Wrappers) : HandleEvent → Wrappers
  | .acquired h => ⟨s.objects,Function.update s.closed h false⟩
  | .released h => ⟨s.objects.map (·.see (.released h)),Function.update s.closed h true⟩

def Wrappers.push (s : Wrappers) (o : Held) : Wrappers := ⟨s.objects ++ [o],s.closed⟩

/-- The value that a call stored through the address of object `i`. -/
def Wrappers.assign (s : Wrappers) (i : Nat) (h : Handle) : Wrappers :=
  ⟨s.objects.set i ⟨⟨h⟩,false⟩,s.closed⟩

/-- One use. A copy constructor that throws makes no object. -/
def handleStep (s : Wrappers) : HandleAction → Wrappers
  | .default => s.push ⟨⟨0#32⟩,false⟩
  | .fromHandle h => s.push ⟨⟨h⟩,s.closed h⟩
  | .copy i answer =>
    match s.objects[i]?, answer with
    | some _, some h => (s.see (.acquired h)).push ⟨⟨h⟩,false⟩
    | _, _ => s
  | .address i answer =>
    match s.objects[i]? with
    | none => s
    | some o =>
      let released := o.object.closeHandle.foldl Wrappers.see s
      match answer with
      | none => released
      | some h => (released.see (.acquired h)).assign i h
  | .convert _ => s

/-- Nothing is closed that already was, and no conversion returns a closed value. -/
def HandleSafe (s : Wrappers) : HandleAction → Prop
  | .address i _ => ∀ o, s.objects[i]? = some o →
      ∀ h, .released h ∈ o.object.closeHandle → s.closed h = false
  | .convert i => ∀ o, s.objects[i]? = some o → o.closed = false
  | _ => True

/-- `operator &` and a conversion of any object would be safe. -/
def Usable (s : Wrappers) : Prop :=
  ∀ i answer, HandleSafe s (.address i answer) ∧ HandleSafe s (.convert i)

/-- No wrapper is made for a handle already closed. `operator &` is applied to an object
that holds NULL, or to the only one with its value and then a handle is stored. -/
def Managed (s : Wrappers) : HandleAction → Prop
  | .fromHandle h => s.closed h = false
  | .address i answer => ∀ o, s.objects[i]? = some o → o.object.m_Handle ≠ 0#32 →
      answer ≠ none ∧
      ∀ j o', s.objects[j]? = some o' → o'.object.m_Handle = o.object.m_Handle → j = i
  | _ => True

/-- An object whose value counts as closed knows it; NULL is never closed. -/
def Tracked (s : Wrappers) : Prop :=
  ∀ (i : Nat) (o : Held), s.objects[i]? = some o → o.object.m_Handle ≠ 0#32 →
    s.closed o.object.m_Handle = true → o.closed = true

/-- No object holds a value that was closed. -/
def NoneClosed (s : Wrappers) : Prop :=
  ∀ (i : Nat) (o : Held), s.objects[i]? = some o → o.closed = false

def noWrappers : Wrappers := ⟨[],fun _ => false⟩

theorem mem_closeHandle {n : NtHandle} {h : Handle} :
    .released h ∈ n.closeHandle ↔ n.m_Handle ≠ 0#32 ∧ h = n.m_Handle := by
  unfold NtHandle.closeHandle
  split
  · rename_i hz
    simp [hz]
  · rename_i hz
    simp [not_not.mp hz]

/-- `operator &` closes nothing of an object that holds NULL. -/
theorem closeHandle_see (n : NtHandle) (s : Wrappers) : n.closeHandle.foldl Wrappers.see s =
    if n.m_Handle = 0#32 then s else s.see (.released n.m_Handle) := by
  unfold NtHandle.closeHandle
  by_cases hz : n.m_Handle = 0#32
  · simp [hz]
  · simp [hz]

theorem usable_iff {s : Wrappers} (h : Tracked s) : Usable s ↔ NoneClosed s := by
  constructor
  · intro hu i o ho
    exact (hu i none).2 o ho
  · intro hn i answer
    refine ⟨?_,hn i⟩
    intro o ho v hv
    obtain ⟨hz,rfl⟩ := mem_closeHandle.mp hv
    rw [← Bool.not_eq_true]
    intro hclosed
    have hseen := h i o ho hz hclosed
    rw [hn i o ho] at hseen
    cases hseen

theorem Tracked.acquired {s : Wrappers} (ht : Tracked s) (h : Handle) :
    Tracked (s.see (.acquired h)) := by
  intro i o ho hz hclosed
  by_cases hh : o.object.m_Handle = h
  · simp [Wrappers.see, hh] at hclosed
  · simp only [Wrappers.see, Function.update_of_ne hh] at hclosed
    exact ht i o ho hz hclosed

theorem Tracked.released {s : Wrappers} (ht : Tracked s) (h : Handle) :
    Tracked (s.see (.released h)) := by
  intro i o ho hz hclosed
  simp only [Wrappers.see, List.getElem?_map, Option.map_eq_some_iff] at ho
  obtain ⟨o,ho,rfl⟩ := ho
  simp only [Held.see, Bool.or_eq_true, decide_eq_true_eq]
  by_cases hh : o.object.m_Handle = h
  · exact .inr hh
  · simp only [Wrappers.see, Held.see, Function.update_of_ne hh] at hclosed
    exact .inl (ht i o ho hz hclosed)

theorem Tracked.push {s : Wrappers} (ht : Tracked s) {o : Held}
    (ho : o.object.m_Handle ≠ 0#32 → s.closed o.object.m_Handle = true → o.closed = true) : Tracked (s.push o) := by
  intro i o' ho' hz hclosed
  rw [Wrappers.push, List.getElem?_append] at ho'
  split at ho'
  · exact ht i o' ho' hz hclosed
  · obtain rfl := List.mem_singleton.mp (List.mem_of_getElem? ho')
    exact ho hz hclosed

theorem Tracked.assign {s : Wrappers} (ht : Tracked s) (i : Nat) {h : Handle}
    (hh : s.closed h = false) : Tracked (s.assign i h) := by
  intro j o ho hz hclosed
  rw [Wrappers.assign, List.getElem?_set] at ho
  split at ho
  · split at ho
    · obtain rfl := Option.some.inj ho
      change s.closed h = true at hclosed
      rw [hh] at hclosed
      cases hclosed
    · cases ho
  · exact ht j o ho hz hclosed

theorem Tracked.step {s : Wrappers} (ht : Tracked s) (a : HandleAction) :
    Tracked (handleStep s a) := by
  cases a with
  | default => exact ht.push (fun hz => absurd rfl hz)
  | fromHandle h => exact ht.push (fun _ => id)
  | copy i answer =>
    simp only [handleStep]
    split
    · rename_i h _
      have hfresh : (s.see (.acquired h)).closed h = false := Function.update_self ..
      refine (ht.acquired h).push fun _ hclosed => ?_
      rw [hfresh] at hclosed
      cases hclosed
    · exact ht
  | address i answer =>
    simp only [handleStep]
    split
    · exact ht
    · rename_i o _
      have hreleased : Tracked (o.object.closeHandle.foldl Wrappers.see s) := by
        rw [closeHandle_see]
        split
        · exact ht
        · exact ht.released _
      cases answer with
      | none => exact hreleased
      | some h => exact (hreleased.acquired h).assign i (Function.update_self ..)
  | convert i => exact ht

/-- NtClose of a value leaves the objects without a closed one iff none holds it. -/
theorem noneClosed_released_iff {s : Wrappers} (hn : NoneClosed s) (h : Handle) :
    NoneClosed (s.see (.released h)) ↔
      ∀ (i : Nat) (o : Held), s.objects[i]? = some o → o.object.m_Handle ≠ h := by
  simp only [NoneClosed, Wrappers.see, List.getElem?_map, Option.map_eq_some_iff]
  constructor
  · intro hafter i o ho
    simpa [Held.see, hn i o ho] using hafter i (o.see (.released h)) ⟨o,ho,rfl⟩
  · rintro hne i _ ⟨o,ho,rfl⟩
    simpa [Held.see, hn i o ho] using hne i o ho

/-- A value stored into object `i` replaces what it held; the others hold what they did. -/
theorem noneClosed_assign_iff (s : Wrappers) (i : Nat) (h : Handle) :
    NoneClosed (s.assign i h) ↔
      ∀ (j : Nat) (o : Held), j ≠ i → s.objects[j]? = some o → o.closed = false := by
  constructor
  · intro hn j o hj ho
    exact hn j o ((List.getElem?_set_ne hj.symm).trans ho)
  · intro hn j o ho
    by_cases hj : j = i
    · subst hj
      rw [Wrappers.assign, List.getElem?_set_self'] at ho
      obtain ⟨_,_,rfl⟩ := Option.map_eq_some_iff.mp ho
      rfl
    · exact hn j o hj ((List.getElem?_set_ne (Ne.symm hj)).symm.trans ho)

theorem noneClosed_push_iff {s : Wrappers} (hn : NoneClosed s) (o : Held) :
    NoneClosed (s.push o) ↔ o.closed = false := by
  constructor
  · intro hafter
    exact hafter s.objects.length o List.getElem?_concat_length
  · intro ho i o' ho'
    rw [Wrappers.push, List.getElem?_append] at ho'
    split at ho'
    · exact hn i o' ho'
    · obtain rfl := List.mem_singleton.mp (List.mem_of_getElem? ho')
      exact ho

/-- A value closed and then replaced in object `i`: any other holder is left with it. -/
theorem noneClosed_replaced_iff {s : Wrappers} (hn : NoneClosed s) (i : Nat) (v h : Handle) :
    NoneClosed (((s.see (.released v)).see (.acquired h)).assign i h) ↔
      ∀ (j : Nat) (o : Held), s.objects[j]? = some o → o.object.m_Handle = v → j = i := by
  rw [noneClosed_assign_iff]
  simp only [Wrappers.see, List.getElem?_map, Option.map_eq_some_iff]
  constructor
  · intro hafter j o ho hsame
    by_contra hj
    have hflag := hafter j _ hj ⟨o,ho,rfl⟩
    simp [Held.see, hsame] at hflag
  · rintro halone j _ hj ⟨o,ho,rfl⟩
    have hne : o.object.m_Handle ≠ v := fun h => hj (halone j o ho h)
    simp [Held.see, hn j o ho, hne]

/-- `operator &` and its call leave no closed value behind iff the object is managed. -/
theorem noneClosed_address_iff {s : Wrappers} (hn : NoneClosed s) (i : Nat)
    (answer : Option Handle) :
    NoneClosed (handleStep s (.address i answer)) ↔ Managed s (.address i answer) := by
  simp only [handleStep, Managed]
  cases ho : s.objects[i]? with
  | none => simp [hn]
  | some o =>
    simp only [closeHandle_see, Option.some.injEq, forall_eq']
    by_cases hz : o.object.m_Handle = 0#32
    · rw [if_pos hz]
      refine iff_of_true ?_ (fun h => absurd hz h)
      cases answer with
      | none => exact hn
      | some h => exact (noneClosed_assign_iff ..).mpr fun j o' _ ho' => hn j o' ho'
    · rw [if_neg hz, imp_iff_right hz]
      cases answer with
      | none =>
        refine iff_of_false ?_ (fun h => h.1 rfl)
        intro hafter
        exact (noneClosed_released_iff hn _).mp hafter i o ho rfl
      | some h =>
        rw [and_iff_right (Option.some_ne_none h)]
        exact noneClosed_replaced_iff hn i _ h

/-- One use leaves the objects without a closed value iff it is a managed one. -/
theorem noneClosed_step_iff {s : Wrappers} (hn : NoneClosed s) (a : HandleAction) :
    NoneClosed (handleStep s a) ↔ Managed s a := by
  cases a with
  | default => exact iff_of_true ((noneClosed_push_iff hn _).mpr rfl) trivial
  | fromHandle h => exact noneClosed_push_iff hn _
  | copy i answer =>
    refine iff_of_true ?_ trivial
    simp only [handleStep]
    split
    · exact (noneClosed_push_iff (s := s.see (.acquired _)) hn _).mpr rfl
    · exact hn
  | address i answer => exact noneClosed_address_iff hn i answer
  | convert i => exact iff_of_true hn trivial

/-- A run whose uses are all managed closes nothing twice and exposes nothing closed, and
in no state on its way would it; and in every other run some object comes to hold a
closed handle that `operator &` would close again or a conversion return. -/
theorem handles_managed (uses : List HandleAction) :
    (EachStep handleStep Managed noWrappers uses → EachStep handleStep HandleSafe noWrappers uses) ∧
    (EachStep handleStep Managed noWrappers uses ↔ Always handleStep Usable noWrappers uses) := by
  have htracked : Tracked noWrappers := fun _ _ ho => by cases ho
  have hnone : NoneClosed noWrappers := fun _ _ ho => by cases ho
  have hexact : Always handleStep Usable noWrappers uses ↔
      EachStep handleStep Managed noWrappers uses := by
    apply always_iff (I := Tracked) (L := fun _ _ => True)
    · intro s a ht hu _
      rw [usable_iff (ht.step a)]
      exact noneClosed_step_iff ((usable_iff ht).mp hu) a
    · exact fun _ a ht _ _ => ht.step a
    · exact htracked
    · exact (usable_iff htracked).mpr hnone
    · exact EachStep.of_forall (fun _ _ => trivial) _
  refine ⟨fun hm => ?_,hexact.symm⟩
  refine (hexact.mpr hm).each ?_
  intro s a hu
  cases a with
  | address i answer => exact (hu i answer).1
  | convert i => exact (hu i none).2
  | default => trivial
  | fromHandle h => trivial
  | copy i answer => trivial

/-- Map's own use is managed, whatever the system answers: the process's wrapper, a fresh
one whose address it takes once, and conversions. -/
theorem map_handles_managed (hProcess : Handle) (answer : Option Handle) :
    EachStep handleStep Managed noWrappers
      [.fromHandle hProcess,.default,.address 1 answer,.convert 1,.convert 0] := by
  refine ⟨rfl,trivial,?_,trivial,trivial,trivial⟩
  intro o ho hz
  obtain rfl := Option.some.inj ho
  exact absurd rfl hz

section sample

/-- A handle is stored, and then the next call through `operator &` fails. -/
def failedReuse : List HandleAction := [.default,.address 0 (some 5#32),.address 0 none]

/-- The object still converts to the closed handle, and `operator &` closes it again. -/
theorem failedReuse_unsafe :
    ¬ EachStep handleStep HandleSafe noWrappers (failedReuse ++ [.convert 0]) ∧
    ¬ EachStep handleStep HandleSafe noWrappers (failedReuse ++ [.address 0 (some 9#32)]) := by
  constructor
  · rintro ⟨_,_,_,hconvert,_⟩
    exact absurd (hconvert _ rfl) (by decide)
  · rintro ⟨_,_,_,haddress,_⟩
    exact absurd (haddress _ rfl 5#32 (by decide)) (by decide)

end sample
end Line2.ElfLoader
