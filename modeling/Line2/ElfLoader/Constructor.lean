import Line2.ElfLoader.Format

/-! The constructor over any NtReadFile. Which bytes a read brings, and whether it
brings any, is left to whoever answers it. -/
namespace Line2.ElfLoader
open Library.Memory

/-- How a read of `length` bytes at an offset is answered: the bytes put at the start of
the buffer, or an error. The reads are numbered by what they are for. -/
abbrev Reader := Nat → Word → Word → Option (List Byte)

section read
variable {α : Type} (f : Format α)

def readStructAs (answer : Word → Word → Option (List Byte)) (stale : Buffer) (offset : Word) :
    Option α :=
  (answer offset (BitVec.ofNat 32 f.size)).map fun bytes =>
    f.ofBuffer fun k => (bytes[k]?).getD (stale k)

def readHeadersAs (entsize : Half) : Nat → Reader → (Nat → Buffer) → Word → Option (List α)
  | 0, _, _, _ => some []
  | num + 1, read, stale, offset => do
    let header ← readStructAs f (read 0) (stale 0) offset
    let headers ← readHeadersAs entsize num (fun i => read (i + 1)) (fun i => stale (i + 1))
      (offset + entsize.setWidth 32)
    some (header :: headers)

/-- Where the loop has got to after `i` turns; the sum wraps. -/
def entryOffset (offset : Word) (entsize : Half) (i : Nat) : Word :=
  offset + BitVec.ofNat 32 i * entsize.setWidth 32

/-- Where entry `i` lies, without wrapping. -/
def entryAt (offset : Word) (entsize : Half) (i : Nat) : Nat := offset.toNat + i * entsize.toNat

theorem entryOffset_toNat (offset : Word) (entsize : Half) (i : Nat) :
    (entryOffset offset entsize i).toNat = entryAt offset entsize i % 2^32 := by
  have hent : (entsize.setWidth 32).toNat = entsize.toNat :=
    BitVec.toNat_setWidth_of_le (by decide)
  rw [entryOffset, entryAt, BitVec.toNat_add, BitVec.toNat_mul, BitVec.toNat_ofNat, hent, Nat.mod_mul_mod,
    Nat.add_mod_mod]

@[simp] theorem entryOffset_zero (offset : Word) (entsize : Half) :
    entryOffset offset entsize 0 = offset := by
  simp [entryOffset]

theorem entryOffset_succ (offset : Word) (entsize : Half) (i : Nat) :
    entryOffset (offset + entsize.setWidth 32) entsize i = entryOffset offset entsize (i + 1) := by
  rw [entryOffset, entryOffset, BitVec.ofNat_add, BitVec.add_mul, BitVec.one_mul, BitVec.add_assoc,
    BitVec.add_comm (entsize.setWidth 32)]

/-- The loop reads entry `i` at its offset, for every entry, or throws. -/
theorem readHeadersAs_eq_some_iff {entsize : Half} {num : Nat} {read : Reader}
    {stale : Nat → Buffer} {offset : Word} {headers : List α} :
    readHeadersAs f entsize num read stale offset = some headers ↔
      headers.length = num ∧ ∀ i (hi : i < headers.length),
        readStructAs f (read i) (stale i) (entryOffset offset entsize i) = some headers[i] := by
  induction num generalizing read stale offset headers with
  | zero =>
    rw [readHeadersAs, List.length_eq_zero_iff, Option.some.injEq]
    constructor
    · rintro rfl
      exact ⟨rfl,fun i hi => absurd hi (Nat.not_lt_zero i)⟩
    · rintro ⟨rfl,_⟩
      rfl
  | succ num ih =>
    simp only [readHeadersAs, Option.bind_eq_bind, Option.bind_eq_some_iff, Option.some.injEq]
    constructor
    · rintro ⟨header,hheader,tail,htail,rfl⟩
      obtain ⟨hlen,hentries⟩ := ih.mp htail
      refine ⟨by rw [List.length_cons, hlen],?_⟩
      intro i hi
      cases i with
      | zero => simpa using hheader
      | succ i =>
        rw [← entryOffset_succ]
        exact hentries i (Nat.lt_of_succ_lt_succ hi)
    · rintro ⟨hlen,hentries⟩
      cases headers with
      | nil => cases hlen
      | cons header tail =>
        refine ⟨header,?_,tail,?_,rfl⟩
        · simpa using hentries 0 (Nat.zero_lt_succ _)
        · refine ih.mpr ⟨Nat.succ.inj hlen,?_⟩
          intro i hi
          rw [entryOffset_succ]
          exact hentries (i + 1) (Nat.succ_lt_succ hi)

end read

def readStringTableAs (answer : Word → Word → Option (List Byte)) (room : Word → Bool)
    (sections : List Elf32Shdr) : Option (List Byte) :=
  match findStringTable sections with
  | none => some []
  | some s =>
    if room s.sh_size then
      (answer s.sh_offset s.sh_size).map fun bytes =>
        bytes ++ List.replicate (s.sh_size.toNat - bytes.length) 0#8
    else none

/-- `ElfFile::ElfFile`. Read 0 is the header's; the section headers' come next, then the
string table's, then the program headers'. -/
def openElfFileAs (read : Reader) (env : Surroundings) (file : List Byte) : Option ElfFile := do
  let header ← readStructAs hdrFormat (read 0) env.hdr 0#32
  if validMagick header then
    let shnum := header.e_shnum.toNat
    let sectionHeaders ← readHeadersAs shdrFormat header.e_shentsize shnum
      (fun i => read (1 + i)) env.shdr header.e_shoff
    let stringTable ← readStringTableAs (read (1 + shnum)) env.room sectionHeaders
    let programHeaders ← readHeadersAs phdrFormat header.e_phentsize header.e_phnum.toNat
      (fun i => read (2 + shnum + i)) env.phdr header.e_phoff
    some ⟨file,header,sectionHeaders,stringTable,programHeaders⟩
  else none

/-- Every read of the constructor went through, and its result is in the object. -/
structure Constructed (read : Reader) (env : Surroundings) (file : List Byte) (elf : ElfFile) :
    Prop where
  file : elf.file = file
  header : readStructAs hdrFormat (read 0) env.hdr 0#32 = some elf.header
  magick : validMagick elf.header = true
  sections : readHeadersAs shdrFormat elf.header.e_shentsize elf.header.e_shnum.toNat
    (fun i => read (1 + i)) env.shdr elf.header.e_shoff = some elf.sectionHeaders
  strings : readStringTableAs (read (1 + elf.header.e_shnum.toNat)) env.room elf.sectionHeaders =
    some elf.stringTable
  programs : readHeadersAs phdrFormat elf.header.e_phentsize elf.header.e_phnum.toNat
    (fun i => read (2 + elf.header.e_shnum.toNat + i)) env.phdr elf.header.e_phoff =
    some elf.programHeaders

theorem openElfFileAs_eq_some_iff {read : Reader} {env : Surroundings} {file : List Byte}
    {elf : ElfFile} :
    openElfFileAs read env file = some elf ↔ Constructed read env file elf := by
  constructor
  · intro h
    unfold openElfFileAs at h
    obtain ⟨header,hheader,h⟩ := Option.bind_eq_some_iff.mp h
    split at h
    · rename_i hmagick
      obtain ⟨sections,hsections,h⟩ := Option.bind_eq_some_iff.mp h
      obtain ⟨strings,hstrings,h⟩ := Option.bind_eq_some_iff.mp h
      obtain ⟨programs,hprograms,h⟩ := Option.bind_eq_some_iff.mp h
      obtain rfl := Option.some.inj h
      exact ⟨rfl,hheader,hmagick,hsections,hstrings,hprograms⟩
    · cases h
  · rintro ⟨rfl,hheader,hmagick,hsections,hstrings,hprograms⟩
    simp [openElfFileAs, hheader, hmagick, hsections, hstrings, hprograms]

theorem readHeadersAs_eq {α : Type} (f : Format α) (file : List Byte) (entsize : Half) (num : Nat)
    (stale : Nat → Buffer) (offset : Word) :
    readHeadersAs f entsize num (fun _ => readFromFile file) stale offset =
      readHeaders f.ofBuffer f.size file entsize num stale offset := by
  induction num generalizing stale offset with
  | zero => rfl
  | succ num ih => rw [readHeadersAs, readHeaders, ih]; rfl

/-- Over a file's own bytes it is `openElfFile`. -/
theorem openElfFileAs_eq (env : Surroundings) (file : List Byte) :
    openElfFileAs (fun _ => readFromFile file) env file = openElfFile env file := by
  simp only [openElfFileAs, readHeadersAs_eq]
  rfl

end Line2.ElfLoader
