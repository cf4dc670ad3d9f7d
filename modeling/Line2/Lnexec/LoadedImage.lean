import Line2.ElfLoader.ImageFidelity
import Line2.ElfLoader.RoundTrip
import Line2.Lnexec.Admission

/-! From a file as a linker lays it out to the first instruction of the guest: what main
reads, maps and enters on a host that gives it what it asks for. -/
namespace Line2.Lnexec
open Library.Memory Library.Stack ElfLoader

/-- The file's path opens it, reads inside it bring the bytes, the string table finds room,
the view is mapped and no read into it is refused. What runs between Map and start, and the
stack that start pushes on, are apart from the segments. -/
structure Obliging (host : Host) (path file : List Byte) (sections : List Elf32Shdr)
    (programs : List Elf32Phdr) : Prop where
  opens : host.openFile path = some file
  reads : ServesInside (host.read file) file
  room : ∀ s, FirstStringTable sections s → host.env.room s.sh_size = true
  view : ∃ base, host.map.view = some base ∧ Placed programs base
  grants : ∀ i, host.map.refused i = false
  machine : ∀ mapped, ∀ p ∈ loads programs, ∀ x, p.Covers x →
    (host.machine mapped).mem x = mapped.mem x
  stack : ∀ mapped, ∀ p ∈ loads programs, ∀ x, p.Covers x →
    ¬ Within ((host.machine mapped).cpu.esp - 12#32) 12 x

/-- The guest is at the entry point, above an empty argument list, in the image of the file. -/
structure Entered (file : List Byte) (h : Elf32Hdr) (programs : List Elf32Phdr)
    (s : Ia32.State) : Prop where
  eip : s.cpu.eip = h.e_entry
  stack : Words s.mem s.cpu.esp [0#32,0#32,0#32]
  contents : ∀ p ∈ loads programs, load s.mem p.p_vaddr p.p_filesz.toNat = p.contents file
  cleared : ∀ p ∈ loads programs, ∀ k < p.p_memsz.toNat, p.p_filesz.toNat ≤ k →
    s.mem (p.p_vaddr + BitVec.ofNat 32 k) = 0#8

/-- The constructor on a laid out file. -/
theorem constructed_of_laidOut {read : Reader} {env : Surroundings} {file : List Byte}
    {h : Elf32Hdr} {sections : List Elf32Shdr} {programs : List Elf32Phdr}
    (hread : ServesInside read file) (hmagick : validMagick h = true)
    (hlaid : LaidOut file h sections programs)
    (hroom : ∀ s, FirstStringTable sections s → env.room s.sh_size = true) :
    ∃ strings, Constructed read env file ⟨file,h,sections,strings,programs⟩ := by
  have hsections := readHeadersAs_lies hread shdrFormat (fun _ _ => trivial) hlaid.small
    hlaid.sectionTable 1 env.shdr
  have hprograms := readHeadersAs_lies hread phdrFormat (fun _ _ => trivial) hlaid.small
    hlaid.programTable (2 + h.e_shnum.toNat) env.phdr
  rw [hlaid.shnum] at hsections
  rw [hlaid.phnum] at hprograms
  obtain ⟨strings,hstrings,_⟩ := readStringTableAs_lies hread hroom
    (fun s hs => (hlaid.strings s hs).2) (1 + h.e_shnum.toNat)
  exact ⟨strings,rfl,readStructAs_lies hread hdrFormat hlaid.ident 0#32 hlaid.header 0 env.hdr,
    hmagick,hsections,hstrings,hprograms⟩

/-- Where nothing is refused, segments inside the file are read. -/
theorem readSegments_granted {file : List Byte} {refused : Nat → Bool}
    (hgrants : ∀ i, refused i = false) {headers : List Elf32Phdr} (i : Nat)
    (hinside : ∀ p ∈ loads headers, p.p_offset.toNat + p.p_filesz.toNat ≤ file.length) :
    (readSegments file refused i headers).1 = true := by
  induction headers generalizing i with
  | nil => rfl
  | cons p headers ih =>
    by_cases hp : p.p_type = PT_LOAD
    · rw [loads_load hp, List.forall_mem_cons] at hinside
      have hrest := ih (i + 1) hinside.2
      have hread : ∃ bytes, readFromFile file p.p_offset p.p_filesz = some bytes := by
        unfold readFromFile
        split
        · exact ⟨_,rfl⟩
        · rename_i hz
          have hpos : 0 < p.p_filesz.toNat := by bv_omega
          rw [if_neg (by omega)]
          exact ⟨_,rfl⟩
      obtain ⟨bytes,hbytes⟩ := hread
      simp only [readSegments, if_pos hp, attempt, hgrants, Bool.false_eq_true, if_false, hbytes]
      exact hrest
    · rw [loads_other hp] at hinside
      simp only [readSegments, if_neg hp]
      exact ih (i + 1) hinside

section entered
variable {file : List Byte} {h : Elf32Hdr} {programs : List Elf32Phdr} {elf : ElfFile}

/-- start on the image that Map left, over a machine that spares the segments. -/
theorem entered_of_mapped (hwf : WellFormed file programs) {base : Addr}
    (hplaced : Placed programs base) (m : Mem) (s : Ia32.State)
    (hmachine : ∀ p ∈ loads programs, ∀ x, p.Covers x → s.mem x =
      storeAll (zeroed m base (pageUp (mappingSize programs).toNat))
        ((loads programs).map fun p => (p.p_vaddr,p.contents file)) x)
    (hstack : ∀ p ∈ loads programs, ∀ x, p.Covers x → ¬ Within (s.cpu.esp - 12#32) 12 x) :
    Entered file h programs (start h.e_entry s) := by
  obtain ⟨heip,_,hesp,hwords,hmem⟩ := start_spec h.e_entry s
  have himage (p : Elf32Phdr) (hp : p ∈ loads programs) (x : Addr) (hx : p.Covers x) :
      (start h.e_entry s).mem x =
        storeAll (zeroed m base (pageUp (mappingSize programs).toNat))
          ((loads programs).map fun p => (p.p_vaddr,p.contents file)) x :=
    (hmem x (hstack p hp x hx)).trans (hmachine p hp x hx)
  refine ⟨heip,?_,?_,?_⟩
  · rw [hesp]
    exact hwords
  · intro p hp
    have hsize := hwf.sizes p hp
    apply List.ext_getElem?
    intro k
    by_cases hk : k < p.p_filesz.toNat
    · have hstored := hwf.storeAll_contents hp hk
        (zeroed m base (pageUp (mappingSize programs).toNat))
      rw [← himage p hp _ (hwf.covers_offset hp (by omega))] at hstored
      simp [load, Elf32Phdr.contents, hk, hstored]
    · rw [List.getElem?_eq_none (by rw [load_length]; omega),
        List.getElem?_eq_none (by rw [hwf.contents_length hp]; omega)]
  · intro p hp k hk hf
    rw [himage p hp _ (hwf.covers_offset hp hk)]
    exact storeAll_zero (hwf.in_view hplaced hp hk) (fun q hq => hwf.no_read_at hp hk hf hq) m

end entered

/-- A well-formed file with the magic is entered at its entry point with its segments in
memory: wherever its tables lie, whatever its other fields and the surplus arguments. -/
theorem laid_out_file_starts (host : Host) (lnexec path : List Byte) (args : List (List Byte))
    {file : List Byte} {h : Elf32Hdr} {sections : List Elf32Shdr} {programs : List Elf32Phdr}
    (hhost : Obliging host path file sections programs) (hmagick : validMagick h = true)
    (hlaid : LaidOut file h sections programs) (hwf : WellFormed file programs) :
    ∃ s, main host (lnexec :: path :: args) = .jumped s ∧ Entered file h programs s := by
  obtain ⟨strings,hc⟩ := constructed_of_laidOut hhost.reads hmagick hlaid hhost.room
  obtain ⟨base,hview,hplaced⟩ := hhost.view
  let elf : ElfFile := ⟨file,h,sections,strings,programs⟩
  have hloop := readSegments_granted hhost.grants 0 hwf.inFile
  have hmapped : (elf.map host.map host.mem).returned = true := by
    rw [ElfFile.map, hview]
    exact hloop
  obtain ⟨base',hview',_,hmem⟩ := map_returned hmapped
  obtain rfl : base = base' := Option.some.inj (hview.symm.trans hview')
  refine ⟨_,main_eq_jumped_iff.mpr ⟨elf,⟨hhost.opens,hc,hmapped⟩,rfl⟩,?_⟩
  refine entered_of_mapped hwf hplaced host.mem _ ?_ (hhost.stack _)
  intro p hp x hx
  rw [hhost.machine _ p hp x hx, hmem]

section sample

/-- It opens one file at any path, and its stack is well above the segment. -/
def sampleFileHost : Host := { oneSegmentHost with openFile := fun _ => some sampleFile }

private theorem sampleFile_wellFormed : WellFormed sampleFile [tinySegment 8#32] := by
  have hloads : loads [tinySegment 8#32] = [tinySegment 8#32] := rfl
  constructor <;> rw [hloads]
  · exact List.cons_ne_nil _ _
  · exact List.forall_mem_singleton.mpr (by decide)
  · exact List.forall_mem_singleton.mpr (by decide)
  · exact List.forall_mem_singleton.mpr (by decide +kernel)
  · exact List.forall_mem_singleton.mpr (by decide)
  · exact List.pairwise_singleton _ _

private theorem sampleFileHost_obliging :
    Obliging sampleFileHost [0x61#8] sampleFile sampleSections [tinySegment 8#32] where
  opens := rfl
  reads := sampleFile_serves
  room := fun _ _ => rfl
  view := ⟨0x10000#32,rfl,by decide,fun _ => by decide,by decide⟩
  grants := fun _ => rfl
  machine := fun _ _ _ _ _ => rfl
  stack := by
    intro mapped p hp x hx hin
    obtain rfl := List.mem_singleton.mp hp
    have hcovers : 0x1fffe ≤ x.toNat ∧ x.toNat < 0x1fffe + 8 := hx
    have hstack : Within (0x12ff00#32 - 12#32) 12 x := hin
    simp only [Within] at hstack
    bv_omega

theorem sampleFile_starts : ∃ s, main sampleFileHost [[],[0x61#8]] = .jumped s ∧
    Entered sampleFile sampleHeader [tinySegment 8#32] s :=
  laid_out_file_starts sampleFileHost [] [0x61#8] [] sampleFileHost_obliging (by decide)
    sampleFile_laidOut sampleFile_wellFormed

end sample
end Line2.Lnexec
