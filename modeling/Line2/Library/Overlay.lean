import Line2.Library.Memory
import Mathlib.Data.List.Pairwise

/-! Stores over one another: which byte comes out on top, and when their order makes
no difference. -/
namespace Line2.Library.Overlay
open Memory

/-- The byte that the last of the stores over an address puts there. -/
def topmost : List (Addr × List Byte) → Addr → Option Byte
  | [], _ => none
  | s :: stores, x => (topmost stores x).or s.2[(x - s.1).toNat]?

/-- No two of the stores share a byte. -/
def Apart (stores : List (Addr × List Byte)) : Prop :=
  stores.Pairwise fun s t => ∀ x, ¬ (Within s.1 s.2.length x ∧ Within t.1 t.2.length x)

variable {stores stores' : List (Addr × List Byte)} {s : Addr × List Byte} {x : Addr}

theorem storeAll_topmost (m : Mem) (stores : List (Addr × List Byte)) (x : Addr) :
    storeAll m stores x = (topmost stores x).getD (m x) := by
  induction stores generalizing m with
  | nil => rfl
  | cons s stores ih =>
    have hrest : storeAll m (s :: stores) x = (topmost stores x).getD (store m s.1 s.2 x) :=
      ih (store m s.1 s.2)
    rw [hrest, topmost, store]
    cases topmost stores x <;> rfl

theorem topmost_eq_none_iff :
    topmost stores x = none ↔ ∀ s ∈ stores, ¬ Within s.1 s.2.length x := by
  induction stores with
  | nil => exact iff_of_true rfl (List.forall_mem_nil _)
  | cons s stores ih =>
    rw [topmost, Option.or_eq_none_iff, ih, List.forall_mem_cons, List.getElem?_eq_none_iff,
      Within, Nat.not_lt, and_comm]

/-- A store that shares no byte with another is on top wherever it is. -/
theorem topmost_of_mem (hapart : Apart stores) (hs : s ∈ stores) (hx : Within s.1 s.2.length x) :
    topmost stores x = s.2[(x - s.1).toNat]? := by
  induction stores with
  | nil => cases hs
  | cons t stores ih =>
    obtain ⟨hhead,htail⟩ := List.pairwise_cons.mp hapart
    rw [topmost]
    rcases List.mem_cons.mp hs with rfl | hs
    · have hnone : topmost stores x = none := by
        refine topmost_eq_none_iff.mpr ?_
        intro t ht hin
        exact hhead t ht x ⟨hx,hin⟩
      rw [hnone, Option.none_or]
    · rw [ih htail hs, List.getElem?_eq_getElem hx, Option.some_or]

theorem Apart.perm (hapart : Apart stores) (h : stores.Perm stores') : Apart stores' :=
  h.pairwise hapart fun hst x hx => hst x hx.symm

theorem topmost_perm (hapart : Apart stores) (h : stores.Perm stores') :
    topmost stores' x = topmost stores x := by
  by_cases hx : ∃ s ∈ stores, Within s.1 s.2.length x
  · obtain ⟨s,hs,hin⟩ := hx
    rw [topmost_of_mem hapart hs hin, topmost_of_mem (hapart.perm h) (h.mem_iff.mp hs) hin]
  · have hout : ∀ s ∈ stores, ¬ Within s.1 s.2.length x := fun s hs hin => hx ⟨s,hs,hin⟩
    rw [topmost_eq_none_iff.mpr hout,
      topmost_eq_none_iff.mpr fun s hs => hout s (h.mem_iff.mpr hs)]

/-- Stores that share no byte may be made in any order. -/
theorem storeAll_perm (hapart : Apart stores) (h : stores.Perm stores') (m : Mem) :
    storeAll m stores' = storeAll m stores := by
  funext x
  rw [storeAll_topmost, storeAll_topmost, topmost_perm hapart h]

end Line2.Library.Overlay
