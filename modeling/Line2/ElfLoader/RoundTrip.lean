import Line2.ElfLoader.Constructor

/-! A file laid out from a header and its tables. Whatever the entries' strides, the
constructor reads back what was laid out. -/
namespace Line2.ElfLoader
open Library.Memory

/-- What is relied on of NtReadFile: a read inside the file brings the bytes asked for. -/
def ServesInside (read : Reader) (file : List Byte) : Prop :=
  ∀ i (offset length : Word), offset.toNat + length.toNat ≤ file.length →
    read i offset length = some ((file.drop offset.toNat).take length.toNat)

/-- The file holds these bytes from an offset on. -/
structure Lies (file : List Byte) (offset : Nat) (bytes : List Byte) : Prop where
  inside : offset + bytes.length ≤ file.length
  bytes : (file.drop offset).take bytes.length = bytes

/-- The first string table, in the list's order. -/
def FirstStringTable (sections : List Elf32Shdr) (s : Elf32Shdr) : Prop :=
  s.sh_type = SHT_STRTAB ∧
    ∃ before after, sections = before ++ s :: after ∧ ∀ t ∈ before, t.sh_type ≠ SHT_STRTAB

/-- A table of records, `entsize` apart. -/
def TableLies {α : Type} (f : Format α) (file : List Byte) (offset : Word) (entsize : Half)
    (entries : List α) : Prop :=
  ∀ i (hi : i < entries.length), Lies file (entryAt offset entsize i) (f.encode entries[i])

/-- The header, both tables and the first string table lie inside the file. -/
structure LaidOut (file : List Byte) (h : Elf32Hdr) (sections : List Elf32Shdr)
    (programs : List Elf32Phdr) : Prop where
  small : file.length < 2^32
  ident : h.e_ident.length = 16
  header : Lies file 0 h.encode
  shnum : sections.length = h.e_shnum.toNat
  sectionTable : TableLies shdrFormat file h.e_shoff h.e_shentsize sections
  phnum : programs.length = h.e_phnum.toNat
  programTable : TableLies phdrFormat file h.e_phoff h.e_phentsize programs
  strings : ∀ s, FirstStringTable sections s →
    s.sh_size ≠ 0#32 ∧ s.sh_offset.toNat + s.sh_size.toNat ≤ file.length

/-- The constructed object holds what the file was laid out from. -/
structure Reproduces (file : List Byte) (h : Elf32Hdr) (sections : List Elf32Shdr)
    (programs : List Elf32Phdr) (elf : ElfFile) : Prop where
  header : elf.header = h
  sectionHeaders : elf.sectionHeaders = sections
  programHeaders : elf.programHeaders = programs
  strings : ∀ s, FirstStringTable sections s →
    elf.stringTable = (file.drop s.sh_offset.toNat).take s.sh_size.toNat
  noStrings : (∀ s ∈ sections, s.sh_type ≠ SHT_STRTAB) → elf.stringTable = []

theorem findStringTable_eq_some_iff {sections : List Elf32Shdr} {s : Elf32Shdr} :
    findStringTable sections = some s ↔ FirstStringTable sections s := by
  simp [findStringTable, FirstStringTable, List.find?_eq_some_iff_append]

theorem findStringTable_eq_none_iff {sections : List Elf32Shdr} :
    findStringTable sections = none ↔ ∀ s ∈ sections, s.sh_type ≠ SHT_STRTAB := by
  simp [findStringTable]

section read
variable {read : Reader} {file : List Byte} (hread : ServesInside read file)
include hread

/-- A record that lies in the file is read from there, whatever the local held. -/
theorem readStructAs_lies {α : Type} (f : Format α) {p : α} (hp : f.Valid p) (offset : Word)
    (hlies : Lies file offset.toNat (f.encode p)) (i : Nat) (stale : Buffer) :
    readStructAs f (read i) stale offset = some p := by
  have hlen := f.encode_length hp
  have hsize : (BitVec.ofNat 32 f.size).toNat = f.size := Nat.mod_eq_of_lt f.size_lt
  obtain ⟨hinside,hbytes⟩ := hlies
  rw [hlen] at hinside hbytes
  have hserved := hread i offset (BitVec.ofNat 32 f.size) (by rwa [hsize])
  rw [hsize, hbytes] at hserved
  rw [readStructAs, hserved, Option.map_some, Option.some.injEq]
  apply f.ofBuffer_encode hp
  rw [← hlen]
  exact Buffer.bytes_getD _ _

/-- The running offset is the true one at each entry: it lies inside the file. -/
theorem readHeadersAs_lies {α : Type} (f : Format α) {entries : List α}
    (hvalid : ∀ p ∈ entries, f.Valid p) (hsmall : file.length < 2^32) {offset : Word}
    {entsize : Half} (hlies : TableLies f file offset entsize entries) (first : Nat)
    (stale : Nat → Buffer) :
    readHeadersAs f entsize entries.length (fun i => read (first + i)) stale offset =
      some entries := by
  refine (readHeadersAs_eq_some_iff f).mpr ⟨rfl,?_⟩
  intro i hi
  have hentry := hlies i hi
  have hoffset : (entryOffset offset entsize i).toNat = entryAt offset entsize i := by
    rw [entryOffset_toNat]
    apply Nat.mod_eq_of_lt
    exact Nat.lt_of_le_of_lt (Nat.le_of_add_right_le hentry.inside) hsmall
  rw [← hoffset] at hentry
  exact readStructAs_lies hread f (hvalid _ (List.getElem_mem hi)) _ hentry (first + i) (stale i)

/-- The string table that the search finds is read whole. -/
theorem readStringTableAs_lies {sections : List Elf32Shdr} {room : Word → Bool}
    (hroom : ∀ s, FirstStringTable sections s → room s.sh_size = true)
    (hinside : ∀ s, FirstStringTable sections s →
      s.sh_offset.toNat + s.sh_size.toNat ≤ file.length) (i : Nat) :
    ∃ strings, readStringTableAs (read i) room sections = some strings ∧
      (∀ s, FirstStringTable sections s →
        strings = (file.drop s.sh_offset.toNat).take s.sh_size.toNat) ∧
      ((∀ s ∈ sections, s.sh_type ≠ SHT_STRTAB) → strings = []) := by
  unfold readStringTableAs
  cases hfind : findStringTable sections with
  | none =>
    refine ⟨[],rfl,?_,fun _ => rfl⟩
    intro s hs
    rw [findStringTable_eq_some_iff.mpr hs] at hfind
    cases hfind
  | some s =>
    have hfirst := findStringTable_eq_some_iff.mp hfind
    have hs := hinside s hfirst
    have hlen : ((file.drop s.sh_offset.toNat).take s.sh_size.toNat).length =
        s.sh_size.toNat := by
      rw [List.length_take, List.length_drop]
      omega
    refine ⟨(file.drop s.sh_offset.toNat).take s.sh_size.toNat,?_,?_,?_⟩
    · dsimp only
      rw [if_pos (hroom s hfirst), hread i _ _ hs, Option.map_some, hlen, Nat.sub_self,
        List.replicate_zero, List.append_nil]
    · intro t ht
      rw [findStringTable_eq_some_iff.mpr ht, Option.some.injEq] at hfind
      rw [hfind]
    · intro hnone
      rw [findStringTable_eq_none_iff.mpr hnone] at hfind
      cases hfind

end read

/-- The constructor reads back any file laid out from a header with the magic and its
tables, where a vector of the string table's size can be made. -/
theorem openElfFile_reproduces (read : Reader) (env : Surroundings) (file : List Byte)
    (h : Elf32Hdr) (sections : List Elf32Shdr) (programs : List Elf32Phdr)
    (hread : ServesInside read file) (hmagick : validMagick h = true)
    (hlaid : LaidOut file h sections programs)
    (hroom : ∀ s, FirstStringTable sections s → env.room s.sh_size = true) :
    ∃ elf, openElfFileAs read env file = some elf ∧ Reproduces file h sections programs elf := by
  have hheader : readStructAs hdrFormat (read 0) env.hdr 0#32 = some h :=
    readStructAs_lies hread hdrFormat hlaid.ident 0#32 hlaid.header 0 env.hdr
  have hsections := readHeadersAs_lies hread shdrFormat (fun _ _ => trivial) hlaid.small
    hlaid.sectionTable 1 env.shdr
  have hprograms := readHeadersAs_lies hread phdrFormat (fun _ _ => trivial) hlaid.small
    hlaid.programTable (2 + h.e_shnum.toNat) env.phdr
  rw [hlaid.shnum] at hsections
  rw [hlaid.phnum] at hprograms
  obtain ⟨strings,hstrings,hfirst,hnone⟩ := readStringTableAs_lies hread hroom
    (fun s hs => (hlaid.strings s hs).2) (1 + h.e_shnum.toNat)
  refine ⟨⟨file,h,sections,strings,programs⟩,?_,rfl,rfl,rfl,hfirst,hnone⟩
  exact openElfFileAs_eq_some_iff.mpr ⟨rfl,hheader,hmagick,hsections,hstrings,hprograms⟩

section sample

/-- Of two sections, 44 bytes apart, the second is a string table of three bytes. -/
def sampleSection (type : Word) : Elf32Shdr :=
  ⟨1#32,type,0#32,0#32,172#32,3#32,0#32,0#32,0#32,0#32⟩

def sampleSections : List Elf32Shdr := [sampleSection 1#32,sampleSection SHT_STRTAB]

def sampleHeader : Elf32Hdr :=
  ⟨[0x7f#8,0x45#8,0x4c#8,0x46#8] ++ List.replicate 12 0#8,2#16,3#16,1#32,0x1fffe#32,140#32,52#32,
    0#32,52#16,32#16,1#16,44#16,2#16,1#16⟩

def sampleFile : List Byte :=
  sampleHeader.encode ++ (sampleSection 1#32).encode ++ [0#8,0#8,0#8,0#8] ++
    (sampleSection SHT_STRTAB).encode ++ [0#8,0#8,0#8,0#8] ++ (tinySegment 8#32).encode ++
    [0x61#8,0x62#8,0#8]

private theorem sampleSections_first (s : Elf32Shdr) (hs : FirstStringTable sampleSections s) :
    sampleSection SHT_STRTAB = s := by
  have hfind := findStringTable_eq_some_iff.mpr hs
  have hsecond : findStringTable sampleSections = some (sampleSection SHT_STRTAB) := rfl
  rwa [hsecond, Option.some.injEq] at hfind

theorem sampleFile_serves : ServesInside (fun _ => readFromFile sampleFile) sampleFile := by
  intro _ offset length hinside
  simp only [readFromFile]
  split
  · rename_i hz
    rw [hz]
    rfl
  · rename_i hz
    have hpos : 0 < length.toNat := by bv_omega
    rw [if_neg (by omega)]

private theorem sampleFile_sections :
    TableLies shdrFormat sampleFile sampleHeader.e_shoff sampleHeader.e_shentsize sampleSections
  | 0, _ => show Lies sampleFile 52 (sampleSection 1#32).encode from
      ⟨by decide +kernel,by decide +kernel⟩
  | 1, _ => show Lies sampleFile 96 (sampleSection SHT_STRTAB).encode from
      ⟨by decide +kernel,by decide +kernel⟩

private theorem sampleFile_programs : TableLies phdrFormat sampleFile sampleHeader.e_phoff
    sampleHeader.e_phentsize [tinySegment 8#32]
  | 0, _ => show Lies sampleFile 140 (tinySegment 8#32).encode from
      ⟨by decide +kernel,by decide +kernel⟩

theorem sampleFile_laidOut :
    LaidOut sampleFile sampleHeader sampleSections [tinySegment 8#32] where
  small := by decide +kernel
  ident := rfl
  header := ⟨by decide +kernel,by decide +kernel⟩
  shnum := rfl
  sectionTable := sampleFile_sections
  phnum := rfl
  programTable := sampleFile_programs
  strings := by
    intro s hs
    rw [← sampleSections_first s hs]
    decide +kernel

theorem sampleFile_reproduced : ∃ elf,
    openElfFileAs (fun _ => readFromFile sampleFile) nowhere sampleFile = some elf ∧
      Reproduces sampleFile sampleHeader sampleSections [tinySegment 8#32] elf :=
  openElfFile_reproduces _ nowhere sampleFile sampleHeader sampleSections [tinySegment 8#32]
    sampleFile_serves (by decide) sampleFile_laidOut (fun _ _ => rfl)

end sample
end Line2.ElfLoader
