import Line2.Library.Memory

/-! The ELF loader. The constructor reads the headers it is told of, wherever the
file says they lie; Map sizes one view by the PT_LOAD segments and reads each of
them to its address. -/
namespace Line2.ElfLoader
open Library.Memory

abbrev Half := BitVec 16

/-- What a structure's bytes hold, by offset. -/
abbrev Buffer := Nat → Byte

def Buffer.half (b : Buffer) (k : Nat) : Half :=
  BitVec.ofNat 16 ((b k).toNat + 256 * (b (k + 1)).toNat)

def Buffer.word (b : Buffer) (k : Nat) : Word := word32 (b k) (b (k + 1)) (b (k + 2)) (b (k + 3))

structure Elf32Hdr where
  e_ident : List Byte
  e_type : Half
  e_machine : Half
  e_version : Word
  e_entry : Word
  e_phoff : Word
  e_shoff : Word
  e_flags : Word
  e_ehsize : Half
  e_phentsize : Half
  e_phnum : Half
  e_shentsize : Half
  e_shnum : Half
  e_shtrndx : Half

def Elf32Hdr.size : Nat := 52

def Elf32Hdr.ofBuffer (b : Buffer) : Elf32Hdr where
  e_ident := (List.range 16).map b
  e_type := b.half 16
  e_machine := b.half 18
  e_version := b.word 20
  e_entry := b.word 24
  e_phoff := b.word 28
  e_shoff := b.word 32
  e_flags := b.word 36
  e_ehsize := b.half 40
  e_phentsize := b.half 42
  e_phnum := b.half 44
  e_shentsize := b.half 46
  e_shnum := b.half 48
  e_shtrndx := b.half 50

structure Elf32Shdr where
  sh_name : Word
  sh_type : Word
  sh_flags : Word
  sh_addr : Word
  sh_offset : Word
  sh_size : Word
  sh_link : Word
  sh_info : Word
  sh_addralign : Word
  sh_entsize : Word

def Elf32Shdr.size : Nat := 40

def Elf32Shdr.ofBuffer (b : Buffer) : Elf32Shdr where
  sh_name := b.word 0
  sh_type := b.word 4
  sh_flags := b.word 8
  sh_addr := b.word 12
  sh_offset := b.word 16
  sh_size := b.word 20
  sh_link := b.word 24
  sh_info := b.word 28
  sh_addralign := b.word 32
  sh_entsize := b.word 36

structure Elf32Phdr where
  p_type : Word
  p_offset : Word
  p_vaddr : Word
  p_paddr : Word
  p_filesz : Word
  p_memsz : Word
  p_flags : Word
  p_align : Word

def Elf32Phdr.size : Nat := 32

def Elf32Phdr.ofBuffer (b : Buffer) : Elf32Phdr where
  p_type := b.word 0
  p_offset := b.word 4
  p_vaddr := b.word 8
  p_paddr := b.word 12
  p_filesz := b.word 16
  p_memsz := b.word 20
  p_flags := b.word 24
  p_align := b.word 28

def SHT_STRTAB : Word := 3#32
def PT_LOAD : Word := 1#32

/-- NtReadFile at an offset: the bytes it puts at the start of the buffer. An
offset at or past the end is an error, unless nothing is asked for. -/
def readFromFile (file : List Byte) (offset length : Word) : Option (List Byte) :=
  if length = 0#32 then some []
  else if file.length ≤ offset.toNat then none
  else some ((file.drop offset.toNat).take length.toNat)

/-- A structure read into a local: past a short read it keeps what was there. -/
def readStruct {α : Type} (ofBuffer : Buffer → α) (size : Nat) (file : List Byte) (stale : Buffer)
    (offset : Word) : Option α :=
  (readFromFile file offset (BitVec.ofNat 32 size)).map fun bytes =>
    ofBuffer fun k => (bytes[k]?).getD (stale k)

/-- `num` headers, `entsize` apart; the offset wraps. `stale` is what the local
holds before each of them. -/
def readHeaders {α : Type} (ofBuffer : Buffer → α) (size : Nat) (file : List Byte) (entsize : Half) :
    Nat → (Nat → Buffer) → Word → Option (List α)
  | 0, _, _ => some []
  | num + 1, stale, offset => do
    let header ← readStruct ofBuffer size file (stale 0) offset
    let headers ← readHeaders ofBuffer size file entsize num (fun i => stale (i + 1))
      (offset + entsize.setWidth 32)
    some (header :: headers)

/-- What the constructor finds in memory it did not write, and whether a string
table of a size can be made and its first byte addressed. -/
structure Surroundings where
  hdr : Buffer
  shdr : Nat → Buffer
  phdr : Nat → Buffer
  room : Word → Bool

structure ElfFile where
  file : List Byte
  header : Elf32Hdr
  sectionHeaders : List Elf32Shdr
  stringTable : List Byte
  programHeaders : List Elf32Phdr

def validMagick (h : Elf32Hdr) : Bool := h.e_ident.take 4 = [0x7f#8,0x45#8,0x4c#8,0x46#8]

def findStringTable (sections : List Elf32Shdr) : Option Elf32Shdr :=
  sections.find? fun s => s.sh_type = SHT_STRTAB

/-- The vector starts as zeros, so a short read leaves zeros behind. -/
def readStringTable (file : List Byte) (room : Word → Bool) (sections : List Elf32Shdr) :
    Option (List Byte) :=
  match findStringTable sections with
  | none => some []
  | some s =>
    if room s.sh_size then
      (readFromFile file s.sh_offset s.sh_size).map fun bytes =>
        bytes ++ List.replicate (s.sh_size.toNat - bytes.length) 0#8
    else none

/-- `ElfFile::ElfFile`; `none` is a thrown exception. -/
def openElfFile (env : Surroundings) (file : List Byte) : Option ElfFile := do
  let header ← readStruct Elf32Hdr.ofBuffer Elf32Hdr.size file env.hdr 0#32
  if validMagick header then
    let sectionHeaders ← readHeaders Elf32Shdr.ofBuffer Elf32Shdr.size file header.e_shentsize
      header.e_shnum.toNat env.shdr header.e_shoff
    let stringTable ← readStringTable file env.room sectionHeaders
    let programHeaders ← readHeaders Elf32Phdr.ofBuffer Elf32Phdr.size file header.e_phentsize
      header.e_phnum.toNat env.phdr header.e_phoff
    some ⟨file,header,sectionHeaders,stringTable,programHeaders⟩
  else none

/-- One turn of the loop over the headers; `End` wraps. -/
def widen : Word × Word → Elf32Phdr → Word × Word
  | (Min,Max), p =>
    if p.p_type = PT_LOAD then
      let End := p.p_vaddr + p.p_memsz
      (if p.p_vaddr < Min then p.p_vaddr else Min,if Max < End then End else Max)
    else (Min,Max)

/-- Min starts at `SIZE_T_MAX`, Max at 0. -/
def getImageBoundaries (headers : List Elf32Phdr) : Word × Word :=
  headers.foldl widen (0xffffffff#32,0#32)

/-- What the system answers Map: whether it makes the section, where it maps the
view, and which of the reads into memory it refuses. -/
structure MapAnswers where
  createSection : Bool
  mapView : Option Addr
  refused : Nat → Bool

def MapAnswers.view (env : MapAnswers) : Option Addr :=
  if env.createSection then env.mapView else none

def pageUp (n : Nat) : Nat := (n + 4095) / 4096 * 4096

def mappingBase (headers : List Elf32Phdr) : Word :=
  (getImageBoundaries headers).1 &&& 0xffff0000#32

def mappingSize (headers : List Elf32Phdr) : Word :=
  let (Min,Max) := getImageBoundaries headers
  (Max - Min) + (Min &&& 0xffff#32)

/-- The read of one segment, which the system may refuse. -/
def attempt (file : List Byte) (refused : Nat → Bool) (i : Nat) (p : Elf32Phdr) :
    Option (List Byte) :=
  if refused i then none else readFromFile file p.p_offset p.p_filesz

/-- The reads of the last loop, and whether all of them went through. -/
def readSegments (file : List Byte) (refused : Nat → Bool) :
    Nat → List Elf32Phdr → Bool × List (Addr × List Byte)
  | _, [] => (true,[])
  | i, p :: headers =>
    if p.p_type = PT_LOAD then
      match attempt file refused i p with
      | none => (false,[])
      | some bytes =>
        let (ok,stores) := readSegments file refused (i + 1) headers
        (ok,(p.p_vaddr,bytes) :: stores)
    else readSegments file refused (i + 1) headers

/-- What Map did: the view it got, what it stored, whether it returned or threw,
and the memory it left. -/
structure Mapped where
  view : Option (Addr × Nat)
  stores : List (Addr × List Byte)
  returned : Bool
  mem : Mem

/-- A fresh view reads as zeros. -/
def zeroed (m : Mem) (base : Addr) (size : Nat) : Mem :=
  fun x => if Within base size x then 0#8 else m x

/-- `ElfFile::Map`. The answered base and size go unused; protections and the
clearing of the rest of a segment are commented out in the source. -/
def ElfFile.map (elf : ElfFile) (env : MapAnswers) (m : Mem) : Mapped :=
  match env.view with
  | none => ⟨none,[],false,m⟩
  | some base =>
    let size := pageUp (mappingSize elf.programHeaders).toNat
    let (ok,stores) := readSegments elf.file env.refused 0 elf.programHeaders
    ⟨some (base,size),stores,ok,storeAll (zeroed m base size) stores⟩

def loads (headers : List Elf32Phdr) : List Elf32Phdr :=
  headers.filter fun p => p.p_type = PT_LOAD

theorem loads_load {p : Elf32Phdr} (h : p.p_type = PT_LOAD) (headers : List Elf32Phdr) :
    loads (p :: headers) = p :: loads headers := by
  simp [loads, h]

theorem loads_other {p : Elf32Phdr} (h : p.p_type ≠ PT_LOAD) (headers : List Elf32Phdr) :
    loads (p :: headers) = loads headers := by
  simp [loads, h]

/-- The file's bytes from the segment's offset, as many as it has of them. -/
def Elf32Phdr.contents (p : Elf32Phdr) (file : List Byte) : List Byte :=
  (file.drop p.p_offset.toNat).take p.p_filesz.toNat

theorem attempt_eq {file bytes : List Byte} {refused : Nat → Bool} {i : Nat} {p : Elf32Phdr}
    (h : attempt file refused i p = some bytes) : bytes = p.contents file := by
  unfold attempt readFromFile at h
  split at h
  · cases h
  · split at h
    · rename_i hz
      simp only [Option.some.injEq] at h
      simp [Elf32Phdr.contents, hz, ← h]
    · split at h
      · cases h
      · exact (Option.some.inj h).symm

/-- The PT_LOAD segments whose read the loop reaches and gets. -/
def segmentsRead (file : List Byte) (refused : Nat → Bool) :
    Nat → List Elf32Phdr → List Elf32Phdr
  | _, [] => []
  | i, p :: headers =>
    if p.p_type = PT_LOAD then
      if attempt file refused i p = none then []
      else p :: segmentsRead file refused (i + 1) headers
    else segmentsRead file refused (i + 1) headers

/-- What the loop stores: the contents of the segments it reads, each at its address. -/
theorem readSegments_stores (file : List Byte) (refused : Nat → Bool) (i : Nat)
    (headers : List Elf32Phdr) : (readSegments file refused i headers).2 =
      (segmentsRead file refused i headers).map fun p => (p.p_vaddr,p.contents file) := by
  induction headers generalizing i with
  | nil => rfl
  | cons p headers ih =>
    by_cases hp : p.p_type = PT_LOAD
    · simp only [readSegments, segmentsRead, if_pos hp]
      cases hread : attempt file refused i p with
      | none => rfl
      | some bytes =>
        simp only [ih (i + 1), attempt_eq hread, reduceCtorEq, if_false, List.map_cons]
    · simp only [readSegments, segmentsRead, if_neg hp]
      exact ih (i + 1)

/-- A loop that runs through has read every PT_LOAD segment. -/
theorem segmentsRead_returned {file : List Byte} {refused : Nat → Bool} {i : Nat}
    {headers : List Elf32Phdr} (h : (readSegments file refused i headers).1 = true) :
    segmentsRead file refused i headers = loads headers := by
  induction headers generalizing i with
  | nil => rfl
  | cons p headers ih =>
    by_cases hp : p.p_type = PT_LOAD
    · simp only [readSegments, if_pos hp] at h
      cases hread : attempt file refused i p with
      | none => simp [hread] at h
      | some bytes =>
        simp only [hread] at h
        simp only [segmentsRead, if_pos hp, hread, reduceCtorEq, if_false, loads_load hp, ih h]
    · simp only [readSegments, if_neg hp] at h
      simp only [segmentsRead, if_neg hp, loads_other hp]
      exact ih h

theorem segmentsRead_subset (file : List Byte) (refused : Nat → Bool) (i : Nat)
    (headers : List Elf32Phdr) : segmentsRead file refused i headers ⊆ loads headers := by
  induction headers generalizing i with
  | nil => exact List.nil_subset _
  | cons p headers ih =>
    by_cases hp : p.p_type = PT_LOAD
    · simp only [segmentsRead, if_pos hp, loads_load hp]
      split
      · exact List.nil_subset _
      · exact List.cons_subset_cons p (ih (i + 1))
    · simp only [segmentsRead, if_neg hp, loads_other hp]
      exact ih (i + 1)

theorem openElfFile_file {env : Surroundings} {file : List Byte} {elf : ElfFile}
    (h : openElfFile env file = some elf) : elf.file = file := by
  unfold openElfFile at h
  obtain ⟨header,_,h⟩ := Option.bind_eq_some_iff.mp h
  split at h
  · obtain ⟨sectionHeaders,_,h⟩ := Option.bind_eq_some_iff.mp h
    obtain ⟨stringTable,_,h⟩ := Option.bind_eq_some_iff.mp h
    obtain ⟨programHeaders,_,h⟩ := Option.bind_eq_some_iff.mp h
    rw [← Option.some.inj h]
  · cases h

section sample

/-- One segment of four bytes at 1fffeh, which takes `memsz` in memory. -/
def tinySegment (memsz : Word) : Elf32Phdr :=
  ⟨PT_LOAD,84#32,0x1fffe#32,0#32,4#32,memsz,6#32,0#32⟩

/-- A file of a header, a program header and the four bytes. -/
def tinyFile (memsz : Word) : List Byte :=
  [0x7f#8,0x45#8,0x4c#8,0x46#8] ++ List.replicate 24 0#8 ++ bytes32 52#32 ++
    List.replicate 10 0#8 ++ [32#8,0#8,1#8] ++ List.replicate 7 0#8 ++
    [PT_LOAD,84#32,0x1fffe#32,0#32,4#32,memsz,6#32,0#32].flatMap bytes32 ++
    [0xde#8,0xad#8,0xbe#8,0xef#8]

def nowhere : Surroundings := ⟨fun _ => 0#8,fun _ _ => 0#8,fun _ _ => 0#8,fun _ => true⟩

def tinyElf (memsz : Word) : ElfFile where
  file := tinyFile memsz
  header := Elf32Hdr.ofBuffer fun k => (((tinyFile memsz).take 52)[k]?).getD 0#8
  sectionHeaders := []
  stringTable := []
  programHeaders := [tinySegment memsz]

/-- Two segments, the higher one first, and its bytes last in the file. -/
def pairSegments : List Elf32Phdr :=
  [⟨PT_LOAD,120#32,0x20010#32,0#32,4#32,12#32,6#32,0#32⟩,
    ⟨PT_LOAD,116#32,0x10ffe#32,0#32,4#32,8#32,6#32,0#32⟩]

/-- A header, two program headers and the eight bytes. -/
def pairFile : List Byte :=
  [0x7f#8,0x45#8,0x4c#8,0x46#8] ++ List.replicate 24 0#8 ++ bytes32 52#32 ++
    List.replicate 10 0#8 ++ [32#8,0#8,2#8] ++ List.replicate 7 0#8 ++
    [PT_LOAD,120#32,0x20010#32,0#32,4#32,12#32,6#32,0#32].flatMap bytes32 ++
    [PT_LOAD,116#32,0x10ffe#32,0#32,4#32,8#32,6#32,0#32].flatMap bytes32 ++
    [0xde#8,0xad#8,0xbe#8,0xef#8,0xca#8,0xfe#8,0xba#8,0xbe#8]

def pairElf : ElfFile where
  file := pairFile
  header := Elf32Hdr.ofBuffer fun k => ((pairFile.take 52)[k]?).getD 0#8
  sectionHeaders := []
  stringTable := []
  programHeaders := pairSegments

/-- The system grants the view at 10000h and every read. -/
def grants : MapAnswers := ⟨true,some 0x10000#32,fun _ => false⟩

end sample
end Line2.ElfLoader
