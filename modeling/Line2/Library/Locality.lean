import Line2.Library.Memory

/-! Computations on memory that keep to some bytes: what the others hold makes no
difference to them, and they leave the others as they are. -/
namespace Line2.Library.Locality
open Memory
variable {ρ τ : Type*}

/-- The memories differ in bytes of `D` only. -/
def AgreeOutside (D : Addr → Prop) (m m' : Mem) : Prop := ∀ x, ¬ D x → m' x = m x

/-- The bytes of `T` are none of `D`. -/
def Avoids (T D : Addr → Prop) : Prop := ∀ x, T x → ¬ D x

/-- From `m` the computation looks at bytes of `T m` only, and stores there only: where
other bytes differ it comes to the same, and they stay. -/
def Confined (T : Mem → Addr → Prop) (f : Mem → ρ × Mem) : Prop :=
  ∀ m m' D, AgreeOutside D m m' → Avoids (T m) D →
    (f m').1 = (f m).1 ∧ AgreeOutside D (f m).2 (f m').2 ∧ ∀ x, D x → (f m').2 x = m' x

section agreement
variable {D : Addr → Prop} {m m' : Mem}

theorem AgreeOutside.read32 (h : AgreeOutside D m m') {a : Addr} (ha : Avoids (Within a 4) D) :
    read32 m' a = read32 m a :=
  read32_congr fun x hx => h x (ha x hx)

theorem AgreeOutside.load (h : AgreeOutside D m m') {a : Addr} {n : Nat} (hn : n ≤ 2^32)
    (ha : Avoids (Within a n) D) : load m' a n = load m a n :=
  load_congr hn fun x hx => h x (ha x hx)

theorem AgreeOutside.store (h : AgreeOutside D m m') (a : Addr) (bs : List Byte) :
    AgreeOutside D (store m a bs) (store m' a bs) := by
  intro x hx
  rw [Memory.store, Memory.store, h x hx]

theorem Avoids.mono {T U : Addr → Prop} (h : Avoids U D) (hT : ∀ x, T x → U x) : Avoids T D :=
  fun x hx => h x (hT x hx)

end agreement

section rules
variable {T U : Mem → Addr → Prop} {f : Mem → ρ × Mem}

/-- The frame rule: a byte it does not keep to stays. -/
theorem Confined.frame (h : Confined T f) {m : Mem} {x : Addr} (hx : ¬ T m x) :
    (f m).2 x = m x := by
  refine (h m m (· = x) (fun _ _ => rfl) ?_).2.2 x rfl
  rintro y hy rfl
  exact hx hy

theorem Confined.mono (h : Confined T f) (hT : ∀ m x, T m x → U m x) : Confined U f :=
  fun m m' D hm hD => h m m' D hm (hD.mono (hT m))

/-- What leaves memory alone keeps to the bytes that decide its result. -/
theorem Confined.of_reads {r : Mem → ρ}
    (h : ∀ m m' D, AgreeOutside D m m' → Avoids (T m) D → r m' = r m) :
    Confined T fun m => (r m,m) :=
  fun m m' D hm hD => ⟨h m m' D hm hD,hm,fun _ _ => rfl⟩

theorem Confined.const (r : ρ) : Confined (fun _ _ => False) fun m => (r,m) :=
  Confined.of_reads fun _ _ _ _ _ => rfl

theorem Confined.store (a : Addr) (bs : List Byte) (r : ρ) :
    Confined (fun _ => Within a bs.length) fun m => (r,store m a bs) := by
  intro m m' D hm hD
  refine ⟨rfl,hm.store a bs,?_⟩
  intro x hx
  exact store_outside m' a bs x fun hin => hD x hin hx

theorem Confined.storeAll (stores : List (Addr × List Byte)) (r : ρ) :
    Confined (fun _ x => ∃ s ∈ stores, Within s.1 s.2.length x)
      fun m => (r,storeAll m stores) := by
  intro m m' D hm hD
  refine ⟨rfl,?_,?_⟩
  · induction stores generalizing m m' with
    | nil => exact hm
    | cons s stores ih =>
      exact ih _ _ (hm.store s.1 s.2)
        (hD.mono fun _ ⟨t,ht,hx⟩ => ⟨t,List.mem_cons_of_mem _ ht,hx⟩)
  · intro x hx
    exact storeAll_outside (fun s hs hin => hD x ⟨s,hs,hin⟩ hx) m'

theorem Confined.map {g : ρ → τ} (hf : Confined T f) :
    Confined T fun m => (g (f m).1,(f m).2) := by
  intro m m' D hm hD
  obtain ⟨hr,hrest,hkept⟩ := hf m m' D hm hD
  exact ⟨congrArg g hr,hrest,hkept⟩

end rules
end Line2.Library.Locality
