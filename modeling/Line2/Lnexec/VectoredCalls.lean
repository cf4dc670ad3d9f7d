import Line2.Lnexec.SysRead
import Line2.Lnexec.SysWrite

/-! What the vectored calls touch of guest memory: the entries and buffers that their loops
come to. -/
namespace Line2.Lnexec
open Library.Memory Library.Locality

/-- The bytes that the loop of sys_readv looks at or stores. -/
def readvTouched (hFile : Handle) (answers : Nat → List Byte → ReadAnswer) (iov : Addr) :
    Nat → Nat → Process → Addr → Prop
  | 0, _, _, _ => False
  | n + 1, i, s, x =>
    let v := iovEntry s.mem iov i
    let file := s.files hFile
    InArray iov i 1 x ∨
    match answers i file with
    | .delivers d =>
      let k := answered file v.iovLen d
      Within v.iovBase k x ∨ readvTouched hFile answers iov n (i + 1)
        (s.advance hFile k (store s.mem v.iovBase (file.take k))) x
    | .fails => False

/-- The bytes that the loop of sys_writev looks at. -/
def writevTouched (answers : Nat → WriteAnswer) (m : Mem) (iov : Addr) :
    Nat → Nat → Addr → Prop
  | 0, _, _ => False
  | n + 1, i, x =>
    let v := iovEntry m iov i
    InArray iov i 1 x ∨
    match answers i with
    | .takes _ => Within v.iovBase v.iovLen.toNat x ∨ writevTouched answers m iov n (i + 1) x
    | .fails => False

/-- The loop of sys_readv keeps to the entries and buffers that it comes to. -/
theorem readvLoop_confined (params : ProcessParameters) (hFile : Handle)
    (answers : Nat → List Byte → ReadAnswer) (iov : Addr) (n i : Nat) (totalBytes : Word)
    (files : Handle → List Byte) :
    Confined (fun m => readvTouched hFile answers iov n i ⟨params,files,m⟩) fun m =>
      let r := readvLoop hFile answers (fun m => iovEntry m iov) n i totalBytes ⟨params,files,m⟩
      ((r.result,r.process.files),r.process.mem) := by
  induction n generalizing i totalBytes files with
  | zero => exact fun m m' D hm _ => ⟨rfl,hm,fun _ _ => rfl⟩
  | succ n ih =>
    intro m m' D hm hD
    have hentry : iovEntry m' iov i = iovEntry m iov i := iovEntry_congr hm (hD.mono fun _ => .inl)
    cases ha : answers i (files hFile) with
    | fails =>
      simp only [readvLoop, ha]
      exact ⟨trivial,hm,fun _ _ => trivial⟩
    | delivers d =>
      let v := iovEntry m iov i
      let k := answered (files hFile) v.iovLen d
      have htouched : Avoids (fun x => Within v.iovBase k x ∨ readvTouched hFile answers iov n
          (i + 1) ⟨params,Function.update files hFile ((files hFile).drop k),
            store m v.iovBase ((files hFile).take k)⟩ x) D := by
        refine hD.mono ?_
        intro x hx
        refine .inr ?_
        simp only [ha]
        exact hx
      obtain ⟨hr,hrest,hkept⟩ := ih (i + 1) (totalBytes + BitVec.ofNat 32 k)
        (Function.update files hFile ((files hFile).drop k)) _ _ D
        (hm.store v.iovBase ((files hFile).take k)) (htouched.mono fun _ => .inr)
      simp only [readvLoop, ha, hentry]
      refine ⟨hr,hrest,?_⟩
      intro x hx
      refine (hkept x hx).trans (store_outside m' v.iovBase _ x ?_)
      rw [List.length_take, Nat.min_eq_left (answered_le ..)]
      exact fun hin => htouched x (.inl hin) hx

/-- So does the loop of sys_writev. -/
theorem writevLoop_congr {D : Addr → Prop} {m m' : Mem} (h : AgreeOutside D m m')
    (answers : Nat → WriteAnswer) (iov : Addr) (n i : Nat) (totalBytes : Word)
    (hD : Avoids (writevTouched answers m iov n i) D) :
    writevLoop m' answers iov n i totalBytes = writevLoop m answers iov n i totalBytes := by
  induction n generalizing i totalBytes with
  | zero => rfl
  | succ n ih =>
    have hentry : iovEntry m' iov i = iovEntry m iov i := iovEntry_congr h (hD.mono fun _ => .inl)
    cases ha : answers i with
    | fails => simp only [writevLoop, ha, ntWriteFile]
    | takes k =>
      let v := iovEntry m iov i
      have htouched : Avoids (fun x => Within v.iovBase v.iovLen.toNat x ∨
          writevTouched answers m iov n (i + 1) x) D := by
        refine hD.mono ?_
        intro x hx
        refine .inr ?_
        simp only [ha]
        exact hx
      have hload : load m' v.iovBase v.iovLen.toNat = load m v.iovBase v.iovLen.toNat :=
        h.load (Nat.le_of_lt v.iovLen.isLt) (htouched.mono fun _ => .inl)
      have hrest := ih (i + 1) (totalBytes + BitVec.ofNat 32
        ((load m v.iovBase v.iovLen.toNat).take k).length) (htouched.mono fun _ => .inr)
      simp only [v] at hload hrest
      simp only [writevLoop, ha, ntWriteFile, hentry, hload, hrest]

end Line2.Lnexec
