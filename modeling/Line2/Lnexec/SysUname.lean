import Line2.Library.CString

/-! `sys_uname.c`: six names, each copied into a field of its own of the guest's struct. -/
namespace Line2.Lnexec
open Library.Memory Library.CString

/-- `__NEW_UTS_LEN`; the fields of `linux_new_utsname_t` are one byte longer. -/
def NEW_UTS_LEN : Nat := 64

inductive UtsField
  | sysname | nodename | release | version | machine | domainname
  deriving DecidableEq

def UtsField.offset : UtsField → Nat
  | .sysname => 0
  | .nodename => 65
  | .release => 130
  | .version => 195
  | .machine => 260
  | .domainname => 325

def UtsField.name : UtsField → String
  | .sysname => "Linux"
  | .nodename => "LINE2"
  | .release => "3.5.0-17-generic"
  | .version => "LINE2"
  | .machine => "x86"
  | .domainname => "example.com"

/-- `strncpy(utsname->f, name, __NEW_UTS_LEN)` -/
def UtsField.copy (utsname : Addr) (f : UtsField) : Addr × List Byte :=
  (utsname + BitVec.ofNat 32 f.offset,strncpy (literal f.name) NEW_UTS_LEN)

def UtsField.copies (utsname : Addr) : List (Addr × List Byte) :=
  [UtsField.sysname,.nodename,.release,.version,.machine,.domainname].map (copy utsname)

def sysUname (m : Mem) (utsname : Addr) : Int × Mem := (0,storeAll m (UtsField.copies utsname))

@[simp] theorem UtsField.copy_length (utsname : Addr) (f : UtsField) :
    (f.copy utsname).2.length = NEW_UTS_LEN :=
  strncpy_length ..

/-- A byte that a field's copy stores. -/
def UtsField.Stores (utsname : Addr) (f : UtsField) (x : Addr) : Prop :=
  Within (utsname + BitVec.ofNat 32 f.offset) NEW_UTS_LEN x

theorem UtsField.mem_copies {utsname : Addr} (f : UtsField) :
    f.copy utsname ∈ copies utsname := by
  apply List.mem_map_of_mem
  cases f <;> simp

/-- Fields lie a byte more apart than a copy is long. -/
theorem UtsField.apart {f g : UtsField} (h : f ≠ g) :
    f.offset + NEW_UTS_LEN < g.offset ∨ g.offset + NEW_UTS_LEN < f.offset := by
  revert h
  cases f <;> cases g <;> decide

theorem UtsField.offset_le (f : UtsField) : f.offset ≤ 325 := by
  cases f <;> decide

theorem UtsField.not_both {utsname : Addr} {f g : UtsField} (h : f ≠ g) (x : Addr) :
    ¬ (f.Stores utsname x ∧ g.Stores utsname x) := by
  have hf := f.offset_le
  have hg := g.offset_le
  rintro ⟨hx,hy⟩
  simp only [Stores, Within, NEW_UTS_LEN] at hx hy
  rcases apart h with hfg | hfg
  · simp only [NEW_UTS_LEN] at hfg
    bv_omega
  · simp only [NEW_UTS_LEN] at hfg
    bv_omega

theorem UtsField.copies_apart (utsname : Addr) : (copies utsname).Pairwise fun s t =>
    ∀ x, ¬ (Within s.1 s.2.length x ∧ Within t.1 t.2.length x) := by
  rw [copies, List.pairwise_map]
  refine List.Pairwise.imp (R := (· ≠ ·)) ?_ (by decide)
  intro f g h x
  rw [copy_length, copy_length]
  exact not_both h x

/-- Copies are shorter than their fields and their names shorter still. -/
theorem UtsField.name_fits (f : UtsField) :
    0#8 ∉ literal f.name ∧ (literal f.name).length < NEW_UTS_LEN := by
  cases f <;> decide

/-- A byte outside of every copy, such as the last of a field, stays. -/
theorem sysUname_outside (m : Mem) {utsname x : Addr}
    (hx : ∀ f : UtsField, ¬ f.Stores utsname x) : (sysUname m utsname).2 x = m x := by
  refine storeAll_outside ?_ m
  intro s hs
  obtain ⟨f,_,rfl⟩ := List.mem_map.mp hs
  rw [UtsField.copy_length]
  exact hx f

theorem sysUname_field (m : Mem) (utsname : Addr) (f : UtsField) :
    load (sysUname m utsname).2 (utsname + BitVec.ofNat 32 f.offset) NEW_UTS_LEN =
      strncpy (literal f.name) NEW_UTS_LEN := by
  have hlen : ∀ s ∈ UtsField.copies utsname, s.2.length ≤ 2^32 := by
    intro s hs
    obtain ⟨g,_,rfl⟩ := List.mem_map.mp hs
    rw [UtsField.copy_length]
    decide
  have hload := load_storeAll (UtsField.copies_apart utsname) hlen (f.mem_copies) m
  rwa [UtsField.copy_length] at hload

/-- The guest reads the six names back from their fields, wherever its struct lies and
whatever it held, and finds every byte as it was that no copy stores. -/
theorem sysUname_reads_back (m : Mem) (utsname : Addr) :
    (∀ f : UtsField, upToNul (load (sysUname m utsname).2
      (utsname + BitVec.ofNat 32 f.offset) (NEW_UTS_LEN + 1)) = literal f.name) ∧
    ∀ x, (∀ f : UtsField, ¬ f.Stores utsname x) → (sysUname m utsname).2 x = m x := by
  refine ⟨?_,fun x hx => sysUname_outside m hx⟩
  intro f
  obtain ⟨hnul,hlen⟩ := f.name_fits
  rw [load_append, sysUname_field, upToNul_strncpy hnul hlen]

end Line2.Lnexec
