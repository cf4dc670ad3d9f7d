import Line2.ElfLoader.Constructor

/-! When a constructed object holds the file's own tables. A read that runs into the
end of the file succeeds with fewer bytes, and nobody looks at how many came. -/
namespace Line2.ElfLoader
open Library.Memory

/-- NtReadFile on a file: an offset at or past the end is an error. -/
def readAt (file : List Byte) (offset length : Word) : Option (List Byte) :=
  if file.length ≤ offset.toNat then none else some ((file.drop offset.toNat).take length.toNat)

/-- The file's bytes from an offset on. -/
def fileAt (file : List Byte) (offset : Nat) : Buffer := fun k => (file[offset + k]?).getD 0#8

/-- The file's bytes from an offset on, and past its end what a local held. -/
def overStale (file : List Byte) (stale : Buffer) (offset : Nat) : Buffer :=
  fun k => (file[offset + k]?).getD (stale k)

/-- Each entry was decoded from the bytes of the file that it lies in whole. -/
structure Decoded {α : Type} (f : Format α) (file : List Byte) (offset : Word) (entsize num : Half)
    (entries : List α) : Prop where
  length : entries.length = num.toNat
  inside : ∀ i < num.toNat, entryAt offset entsize i + f.size ≤ file.length
  entry : ∀ i (hi : i < entries.length),
    entries[i] = f.ofBuffer (fileAt file (entryAt offset entsize i))

structure TablesDecoded (file : List Byte) (elf : ElfFile) : Prop where
  inside : Elf32Hdr.size ≤ file.length
  header : elf.header = Elf32Hdr.ofBuffer (fileAt file 0)
  sections : Decoded shdrFormat file elf.header.e_shoff elf.header.e_shentsize elf.header.e_shnum
    elf.sectionHeaders
  programs : Decoded phdrFormat file elf.header.e_phoff elf.header.e_phentsize elf.header.e_phnum
    elf.programHeaders

/-- The file is long enough for its header and for every entry the header tells of. -/
structure LongEnough (file : List Byte) (h : Elf32Hdr) : Prop where
  header : Elf32Hdr.size ≤ file.length
  sections : ∀ i < h.e_shnum.toNat,
    entryAt h.e_shoff h.e_shentsize i + Elf32Shdr.size ≤ file.length
  programs : ∀ i < h.e_phnum.toNat,
    entryAt h.e_phoff h.e_phentsize i + Elf32Phdr.size ≤ file.length

/-- A constructor that returns has decoded the file, and throws where it is too short. -/
structure ParsingSound (env : Surroundings) (file : List Byte) : Prop where
  decoded : ∀ elf, openElfFileAs (fun _ => readAt file) env file = some elf →
    TablesDecoded file elf
  tooShort : ¬ LongEnough file (Elf32Hdr.ofBuffer (fileAt file 0)) →
    openElfFileAs (fun _ => readAt file) env file = none

/-- No entry's offset wraps, or the file has the entry's bytes also where it wraps to. -/
def Unwrapped {α : Type} (f : Format α) (file : List Byte) (offset : Word) (entsize num : Half) :
    Prop :=
  ∀ i < num.toNat, ∀ k < f.size,
    file[entryAt offset entsize i % 2^32 + k]? = file[entryAt offset entsize i + k]?

/-- The header and every entry lie whole in the file, where 32-bit offsets find them. -/
structure WholeTables (file : List Byte) (h : Elf32Hdr) : Prop where
  long : LongEnough file h
  sections : Unwrapped shdrFormat file h.e_shoff h.e_shentsize h.e_shnum
  programs : Unwrapped phdrFormat file h.e_phoff h.e_phentsize h.e_phnum

/-- What the constructor takes for the header. -/
def headerTaken (env : Surroundings) (file : List Byte) : Elf32Hdr :=
  Elf32Hdr.ofBuffer (overStale file env.hdr 0)

/-- What it takes for the entries of a table. -/
def entriesTaken {α : Type} (f : Format α) (file : List Byte) (stale : Nat → Buffer) (offset : Word)
    (entsize num : Half) : List α :=
  (List.range num.toNat).map fun i =>
    f.ofBuffer (overStale file (stale i) (entryAt offset entsize i % 2^32))

/-- An entry's offset, as 32 bits hold it, is at the end of the file or past it. -/
def PastEnd (file : List Byte) (offset : Word) (entsize num : Half) : Prop :=
  ∃ i < num.toNat, file.length ≤ entryAt offset entsize i % 2^32

/-- The string table's vector cannot be made, or it lies at the end or past it. -/
def NoStringTable (env : Surroundings) (file : List Byte) (sections : List Elf32Shdr) : Prop :=
  ∃ s, findStringTable sections = some s ∧
    (env.room s.sh_size = false ∨ file.length ≤ s.sh_offset.toNat)

/-- A file that the constructor refuses. -/
inductive Refused (env : Surroundings) (file : List Byte) : Prop
  | empty (h : file = [])
  | magick (h : validMagick (headerTaken env file) = false)
  | sections (h : PastEnd file (headerTaken env file).e_shoff (headerTaken env file).e_shentsize
      (headerTaken env file).e_shnum)
  | strings (h : NoStringTable env file (entriesTaken shdrFormat file env.shdr
      (headerTaken env file).e_shoff (headerTaken env file).e_shentsize
      (headerTaken env file).e_shnum))
  | programs (h : PastEnd file (headerTaken env file).e_phoff (headerTaken env file).e_phentsize
      (headerTaken env file).e_phnum)

section read
variable {α : Type} (f : Format α) (file : List Byte)

theorem readStructAs_readAt (stale : Buffer) (offset : Word) :
    readStructAs f (readAt file) stale offset =
      if file.length ≤ offset.toNat then none
      else some (f.ofBuffer (overStale file stale offset.toNat)) := by
  unfold readStructAs readAt
  split
  · rfl
  · rw [Option.map_some, Option.some.injEq, f.ofBuffer_eq_iff]
    intro k hk
    have hsize : (BitVec.ofNat 32 f.size).toNat = f.size := Nat.mod_eq_of_lt f.size_lt
    rw [hsize, List.getElem?_take_of_lt hk, List.getElem?_drop]
    rfl

/-- The loop throws at an offset past the end, and else takes every entry. -/
theorem readHeadersAs_readAt (stale : Nat → Buffer) {entsize num : Half} {offset : Word}
    {headers : List α} :
    readHeadersAs f entsize num.toNat (fun _ => readAt file) stale offset = some headers ↔
      ¬ PastEnd file offset entsize num ∧
        headers = entriesTaken f file stale offset entsize num := by
  simp only [readHeadersAs_eq_some_iff, readStructAs_readAt, entryOffset_toNat]
  constructor
  · rintro ⟨hlen,hentries⟩
    have hread : ∀ i (hi : i < headers.length),
        ¬ file.length ≤ entryAt offset entsize i % 2^32 ∧
          headers[i] = f.ofBuffer (overStale file (stale i) (entryAt offset entsize i % 2^32)) := by
      intro i hi
      have hentry := hentries i hi
      split at hentry
      · cases hentry
      · rename_i hin
        exact ⟨hin,(Option.some.inj hentry).symm⟩
    constructor
    · rintro ⟨i,hi,hpast⟩
      exact (hread i (by rwa [hlen])).1 hpast
    · apply List.ext_getElem
      · simp [entriesTaken, hlen]
      · intro i hi _
        simp [entriesTaken, (hread i hi).2]
  · rintro ⟨hin,rfl⟩
    refine ⟨by simp [entriesTaken],?_⟩
    intro i hi
    have hi' : i < num.toNat := by simpa [entriesTaken] using hi
    rw [if_neg (fun h => hin ⟨i,hi',h⟩)]
    simp [entriesTaken]

/-- An entry inside the file is decoded from its own bytes exactly when the bytes where
its offset wraps to are the same. -/
theorem taken_eq_iff {offset : Nat} (hinside : offset + f.size ≤ file.length) (stale : Buffer) :
    f.ofBuffer (overStale file stale (offset % 2^32)) = f.ofBuffer (fileAt file offset) ↔
      ∀ k < f.size, file[offset % 2^32 + k]? = file[offset + k]? := by
  have hle := Nat.mod_le offset (2^32)
  rw [f.ofBuffer_eq_iff]
  refine forall₂_congr fun k hk => ?_
  rw [overStale, fileAt, List.getElem?_eq_getElem (by omega), List.getElem?_eq_getElem (by omega)]
  simp

/-- What is taken for a table is decoded from it exactly when the entries lie whole
in the file and none of their offsets wraps. -/
theorem entriesTaken_decoded_iff (stale : Nat → Buffer) (offset : Word) (entsize num : Half) :
    Decoded f file offset entsize num (entriesTaken f file stale offset entsize num) ↔
      (∀ i < num.toNat, entryAt offset entsize i + f.size ≤ file.length) ∧
        Unwrapped f file offset entsize num := by
  have hlen : (entriesTaken f file stale offset entsize num).length = num.toNat := by
    simp [entriesTaken]
  constructor
  · rintro ⟨_,hinside,hentries⟩
    refine ⟨hinside,?_⟩
    intro i hi
    refine (taken_eq_iff f file (hinside i hi) (stale i)).mp ?_
    simpa [entriesTaken] using hentries i (by rwa [hlen])
  · rintro ⟨hinside,hwrap⟩
    refine ⟨hlen,hinside,?_⟩
    intro i hi
    have hi' : i < num.toNat := by rwa [hlen] at hi
    simpa [entriesTaken] using
      (taken_eq_iff f file (hinside i hi') (stale i)).mpr (hwrap i hi')

end read

theorem readStringTableAs_readAt (env : Surroundings) (file : List Byte)
    (sections : List Elf32Shdr) :
    readStringTableAs (readAt file) env.room sections = none ↔ NoStringTable env file sections := by
  unfold readStringTableAs NoStringTable readAt
  cases hfind : findStringTable sections with
  | none => simp
  | some s => cases hroom : env.room s.sh_size <;> simp [hroom]

/-- A constructor that returns did not refuse the file, and returns what it takes. -/
theorem openElfFileAs_taken {env : Surroundings} {file : List Byte} {elf : ElfFile}
    (h : openElfFileAs (fun _ => readAt file) env file = some elf) :
    ¬ Refused env file ∧ elf.header = headerTaken env file ∧
      elf.sectionHeaders = entriesTaken shdrFormat file env.shdr elf.header.e_shoff
        elf.header.e_shentsize elf.header.e_shnum ∧
      elf.programHeaders = entriesTaken phdrFormat file env.phdr elf.header.e_phoff
        elf.header.e_phentsize elf.header.e_phnum := by
  obtain ⟨-,hheader,hmagick,hsections,hstrings,hprograms⟩ := openElfFileAs_eq_some_iff.mp h
  obtain ⟨hshoff,hshdrs⟩ := (readHeadersAs_readAt ..).mp hsections
  obtain ⟨hphoff,hphdrs⟩ := (readHeadersAs_readAt ..).mp hprograms
  rw [readStructAs_readAt] at hheader
  split at hheader
  · cases hheader
  · rename_i hfile
    have htaken : headerTaken env file = elf.header := Option.some.inj hheader
    refine ⟨?_,htaken.symm,hshdrs,hphdrs⟩
    rintro (rfl | hm | hs | hn | hp)
    · exact hfile (Nat.le_refl 0)
    · rw [htaken, hmagick] at hm
      cases hm
    · rw [htaken] at hs
      exact hshoff hs
    · rw [htaken, ← hshdrs, ← readStringTableAs_readAt, hstrings] at hn
      cases hn
    · rw [htaken] at hp
      exact hphoff hp

theorem openElfFileAs_accepts {env : Surroundings} {file : List Byte} (h : ¬ Refused env file) :
    ∃ elf, openElfFileAs (fun _ => readAt file) env file = some elf := by
  have hfile : ¬ file.length ≤ 0 := fun hle =>
    h (.empty (List.length_eq_zero_iff.mp (Nat.le_zero.mp hle)))
  have hheader : readStructAs hdrFormat (readAt file) env.hdr 0#32 =
      some (headerTaken env file) := by
    rw [readStructAs_readAt]
    exact if_neg hfile
  have hmagick : validMagick (headerTaken env file) = true :=
    eq_true_of_ne_false fun hm => h (.magick hm)
  have hsections := (readHeadersAs_readAt shdrFormat file env.shdr).mpr
    ⟨fun hp => h (.sections hp),rfl⟩
  have hprograms := (readHeadersAs_readAt phdrFormat file env.phdr).mpr
    ⟨fun hp => h (.programs hp),rfl⟩
  obtain ⟨strings,hstrings⟩ := Option.ne_none_iff_exists'.mp
    fun hn => h (.strings ((readStringTableAs_readAt ..).mp hn))
  exact ⟨⟨file,_,_,strings,_⟩,openElfFileAs_eq_some_iff.mpr
    ⟨rfl,hheader,hmagick,hsections,hstrings,hprograms⟩⟩

/-- The header taken from a file that is long enough for one is the file's. -/
theorem headerTaken_eq (env : Surroundings) {file : List Byte}
    (h : Elf32Hdr.size ≤ file.length) :
    headerTaken env file = Elf32Hdr.ofBuffer (fileAt file 0) := by
  refine hdrFormat.ofBuffer_eq_iff.mpr ?_
  intro k hk
  have hk' : 0 + k < file.length := by
    rw [Nat.zero_add]
    exact Nat.lt_of_lt_of_le hk h
  rw [overStale, fileAt, List.getElem?_eq_getElem hk', Option.getD_some, Option.getD_some]

theorem unwrapped_of_inside {α : Type} {f : Format α} {file : List Byte} {offset : Word}
    {entsize num : Half} (hsmall : file.length ≤ 2^32) (hsize : 0 < f.size)
    (hinside : ∀ i < num.toNat, entryAt offset entsize i + f.size ≤ file.length) :
    Unwrapped f file offset entsize num := by
  intro i hi k _
  have hlt : entryAt offset entsize i < 2^32 := by
    have hle := hinside i hi
    omega
  rw [Nat.mod_eq_of_lt hlt]

/-- In a file of at most 4 GiB nothing that lies inside wraps. -/
theorem wholeTables_iff_longEnough {file : List Byte} (hsmall : file.length ≤ 2^32)
    (h : Elf32Hdr) : WholeTables file h ↔ LongEnough file h :=
  ⟨WholeTables.long,fun hlong => ⟨hlong,unwrapped_of_inside hsmall (by decide) hlong.sections,
    unwrapped_of_inside hsmall (by decide) hlong.programs⟩⟩

/-- The constructor's tables are the file's if and only if it refuses the file or all
they are read from lies whole in it. -/
theorem parsing_sound_iff (env : Surroundings) (file : List Byte) :
    ParsingSound env file ↔
      WholeTables file (Elf32Hdr.ofBuffer (fileAt file 0)) ∨ Refused env file := by
  by_cases hrefused : Refused env file
  · have hnone : openElfFileAs (fun _ => readAt file) env file = none := by
      rw [Option.eq_none_iff_forall_ne_some]
      exact fun elf helf => (openElfFileAs_taken helf).1 hrefused
    refine iff_of_true ⟨?_,fun _ => hnone⟩ (.inr hrefused)
    intro elf helf
    rw [hnone] at helf
    cases helf
  · rw [or_iff_left hrefused]
    obtain ⟨elf,helf⟩ := openElfFileAs_accepts hrefused
    obtain ⟨_,hheader,hshdrs,hphdrs⟩ := openElfFileAs_taken helf
    constructor
    · intro h
      obtain ⟨hinside,hdecoded,hsections,hprograms⟩ := h.decoded elf helf
      rw [hshdrs, entriesTaken_decoded_iff, hdecoded] at hsections
      rw [hphdrs, entriesTaken_decoded_iff, hdecoded] at hprograms
      exact ⟨⟨hinside,hsections.1,hprograms.1⟩,hsections.2,hprograms.2⟩
    · intro h
      have hdecoded := headerTaken_eq env h.long.header
      refine ⟨?_,fun hshort => absurd h.long hshort⟩
      intro elf' helf'
      obtain rfl : elf = elf' := Option.some.inj (helf.symm.trans helf')
      refine ⟨h.long.header,hheader.trans hdecoded,?_,?_⟩
      · rw [hshdrs, entriesTaken_decoded_iff, hheader, hdecoded]
        exact ⟨h.long.sections,h.sections⟩
      · rw [hphdrs, entriesTaken_decoded_iff, hheader, hdecoded]
        exact ⟨h.long.programs,h.programs⟩

section sample

/-- A file of the magic alone: the rest of the header is what the object's memory held. -/
theorem magickOnly_taken : ¬ ParsingSound nowhere [0x7f#8,0x45#8,0x4c#8,0x46#8] := by
  intro h
  exact absurd (h.decoded _ rfl).inside (by decide)

end sample
end Line2.ElfLoader
