import Line2.ElfLoader.Constructor
import Line2.Library.Exceptions

/-! How the constructor can end. Each read may throw the loader's own exception; the
vectors may find no memory, and the string table may have no element to address. -/
namespace Line2.ElfLoader
open Library.Memory Library.Exceptions

/-- What stops the constructor: an `Exception`, NtException included, a std exception of a
vector that gets no memory, or the use of an element that a vector does not have. -/
inductive Stop
  | exception
  | noMemory
  | outOfRange

/-- main's handler is for `const Exception &` alone. -/
def caughtByMain : Stop → Prop
  | .exception => True
  | .noMemory => False
  | .outOfRange => False

/-- Whether the vectors get memory: for each push_back of the two tables, and for the
string table's resize to a size. -/
structure Allocator where
  pushSection : Nat → Bool
  resize : Word → Bool
  pushProgram : Nat → Bool

/-- A read that NT_ERR_E checks. -/
def checked {α : Type} (answer : Option α) : Except Stop α := orThrow .exception answer

section table
variable {α : Type} (f : Format α) (entsize : Half)

/-- The loop of ReadSectionHeaders and ReadProgramHeaders: a read and a push_back a turn. -/
def pushHeaders : Nat → Reader → (Nat → Bool) → (Nat → Buffer) → Word → Except Stop (List α)
  | 0, _, _, _, _ => .ok []
  | num + 1, read, push, stale, offset => do
    let header ← checked (readStructAs f (read 0) (stale 0) offset)
    if push 0 then
      let headers ← pushHeaders num (fun i => read (i + 1)) (fun i => push (i + 1))
        (fun i => stale (i + 1)) (offset + entsize.setWidth 32)
      .ok (header :: headers)
    else .error .noMemory

/-- Every entry that is read gets its place in the vector. -/
def EntriesHeld : Nat → Reader → (Nat → Bool) → (Nat → Buffer) → Word → Prop
  | 0, _, _, _, _ => True
  | num + 1, read, push, stale, offset =>
    (readStructAs f (read 0) (stale 0) offset).isSome = true →
      push 0 = true ∧
      EntriesHeld num (fun i => read (i + 1)) (fun i => push (i + 1))
        (fun i => stale (i + 1)) (offset + entsize.setWidth 32)

end table

/-- `&m_StringTable[0]` is evaluated for any string table, once it has its size. -/
def fillStringTable (answer : Word → Word → Option (List Byte)) (alloc : Allocator)
    (sections : List Elf32Shdr) : Except Stop (List Byte) :=
  match findStringTable sections with
  | none => .ok []
  | some s =>
    if alloc.resize s.sh_size then
      if s.sh_size = 0#32 then .error .outOfRange
      else
        checked ((answer s.sh_offset s.sh_size).map fun bytes =>
          bytes ++ List.replicate (s.sh_size.toNat - bytes.length) 0#8)
    else .error .noMemory

/-- `ElfFile::ElfFile` once its file is open, with every way it can end. -/
def construct (read : Reader) (alloc : Allocator) (env : Surroundings) (file : List Byte) :
    Except Stop ElfFile := do
  let header ← checked (readStructAs hdrFormat (read 0) env.hdr 0#32)
  if validMagick header then
    let shnum := header.e_shnum.toNat
    let sectionHeaders ← pushHeaders shdrFormat header.e_shentsize shnum
      (fun i => read (1 + i)) alloc.pushSection env.shdr header.e_shoff
    let stringTable ← fillStringTable (read (1 + shnum)) alloc sectionHeaders
    let programHeaders ← pushHeaders phdrFormat header.e_phentsize header.e_phnum.toNat
      (fun i => read (2 + shnum + i)) alloc.pushProgram env.phdr header.e_phoff
    .ok ⟨file,header,sectionHeaders,stringTable,programHeaders⟩
  else .error .exception

/-- The computation ends normally, or with something main catches. -/
def EndsCleanly {α : Type} (x : Except Stop α) : Prop := OnlyThrows caughtByMain x

/-- The string table that the search finds, if any, has a byte and gets its memory. -/
def StringsHeld (alloc : Allocator) (sections : List Elf32Shdr) : Prop :=
  ∀ s, findStringTable sections = some s → s.sh_size ≠ 0#32 ∧ alloc.resize s.sh_size = true

/-- What the tables ask of the vectors is there: as far as the reads bring one, each entry
gets its memory, and the first string table has a byte and gets its own. -/
def TablesHeld (read : Reader) (alloc : Allocator) (env : Surroundings) : Prop :=
  ∀ header, readStructAs hdrFormat (read 0) env.hdr 0#32 = some header → validMagick header →
    EntriesHeld shdrFormat header.e_shentsize header.e_shnum.toNat (fun i => read (1 + i))
      alloc.pushSection env.shdr header.e_shoff ∧
    ∀ sections, readHeadersAs shdrFormat header.e_shentsize header.e_shnum.toNat
        (fun i => read (1 + i)) env.shdr header.e_shoff = some sections →
      StringsHeld alloc sections ∧
      ((readStringTableAs (read (1 + header.e_shnum.toNat)) (fun _ => true) sections).isSome →
        EntriesHeld phdrFormat header.e_phentsize header.e_phnum.toNat
          (fun i => read (2 + header.e_shnum.toNat + i)) alloc.pushProgram env.phdr header.e_phoff)

@[simp] theorem checked_eq_ok {α : Type} {o : Option α} {a : α} :
    checked o = .ok a ↔ o = some a :=
  orThrow_eq_ok

@[simp] theorem checked_endsCleanly {α : Type} (o : Option α) : EndsCleanly (checked o) :=
  onlyThrows_orThrow trivial o

@[simp] theorem endsCleanly_ok {α : Type} (a : α) : EndsCleanly (.ok a) := onlyThrows_ok a

@[simp] theorem endsCleanly_error {α : Type} (e : Stop) :
    EndsCleanly (.error e : Except Stop α) ↔ caughtByMain e :=
  onlyThrows_error e

theorem endsCleanly_bind {α β : Type} {x : Except Stop α} {f : α → Except Stop β} :
    EndsCleanly (x >>= f) ↔ EndsCleanly x ∧ ∀ a, x = .ok a → EndsCleanly (f a) :=
  onlyThrows_bind

section table
variable {α : Type} {f : Format α} {entsize : Half} {num : Nat} {read : Reader} {push : Nat → Bool}
  {stale : Nat → Buffer} {offset : Word}

/-- The loop runs through iff every read brings an entry and every push_back has room. -/
theorem pushHeaders_eq_ok_iff {headers : List α} :
    pushHeaders f entsize num read push stale offset = .ok headers ↔
      readHeadersAs f entsize num read stale offset = some headers ∧ ∀ i < num, push i = true := by
  induction num generalizing read push stale offset headers with
  | zero => simp [pushHeaders, readHeadersAs]
  | succ num ih =>
    rw [pushHeaders, readHeadersAs, bind_eq_ok, Nat.forall_lt_succ_left]
    simp only [checked_eq_ok, Option.bind_eq_bind, Option.bind_eq_some_iff, Option.some.injEq]
    constructor
    · rintro ⟨header,hheader,h⟩
      split at h
      · rename_i hpush
        obtain ⟨tail,htail,h⟩ := bind_eq_ok.mp h
        obtain ⟨hread,hrest⟩ := ih.mp htail
        exact ⟨⟨header,hheader,tail,hread,Except.ok.inj h⟩,hpush,hrest⟩
      · cases h
    · rintro ⟨⟨header,hheader,tail,hread,rfl⟩,hpush,hrest⟩
      refine ⟨header,hheader,?_⟩
      rw [if_pos hpush]
      exact bind_eq_ok.mpr ⟨tail,ih.mpr ⟨hread,hrest⟩,rfl⟩

/-- It ends cleanly iff each entry that it reads finds room. -/
theorem pushHeaders_endsCleanly_iff :
    EndsCleanly (pushHeaders f entsize num read push stale offset) ↔
      EntriesHeld f entsize num read push stale offset := by
  induction num generalizing read push stale offset with
  | zero => exact iff_of_true (endsCleanly_ok _) trivial
  | succ num ih =>
    rw [pushHeaders, EntriesHeld, endsCleanly_bind]
    simp only [checked_endsCleanly, checked_eq_ok, true_and]
    cases hheader : readStructAs f (read 0) (stale 0) offset with
    | none => simp
    | some header =>
      cases hpush : push 0 with
      | false => simp [caughtByMain]
      | true => simp [endsCleanly_bind, ih]

/-- With room for what it reads, the loop brings what the reads bring. -/
theorem EntriesHeld.eq_ok_iff (h : EntriesHeld f entsize num read push stale offset)
    {headers : List α} : pushHeaders f entsize num read push stale offset = .ok headers ↔
      readHeadersAs f entsize num read stale offset = some headers := by
  rw [pushHeaders_eq_ok_iff, and_iff_left_iff_imp]
  intro hread
  induction num generalizing read push stale offset headers with
  | zero => exact fun i hi => absurd hi (Nat.not_lt_zero i)
  | succ num ih =>
    rw [readHeadersAs, Option.bind_eq_bind, Option.bind_eq_some_iff] at hread
    obtain ⟨header,hheader,hread⟩ := hread
    obtain ⟨tail,htail,_⟩ := Option.bind_eq_some_iff.mp hread
    obtain ⟨hpush,hrest⟩ := h (by rw [hheader]; rfl)
    exact Nat.forall_lt_succ_left.mpr ⟨hpush,ih hrest htail⟩

end table

/-- The search's first string table has a byte and gets its memory, or the code goes wrong. -/
theorem fillStringTable_endsCleanly_iff {answer : Word → Word → Option (List Byte)}
    {alloc : Allocator} {sections : List Elf32Shdr} :
    EndsCleanly (fillStringTable answer alloc sections) ↔ StringsHeld alloc sections := by
  unfold fillStringTable StringsHeld
  cases findStringTable sections with
  | none => simp
  | some s =>
    cases hroom : alloc.resize s.sh_size with
    | false => simp [hroom, caughtByMain]
    | true =>
      simp only [hroom, if_true]
      by_cases hz : s.sh_size = 0#32
      · simp [hz, caughtByMain]
      · simp [hroom, hz]

/-- What it brings is what `readStringTableAs` does over a room of at least one byte. -/
theorem fillStringTable_eq_ok_iff {answer : Word → Word → Option (List Byte)}
    {alloc : Allocator} {sections : List Elf32Shdr} {strings : List Byte} :
    fillStringTable answer alloc sections = .ok strings ↔
      readStringTableAs answer (fun n => n ≠ 0#32 && alloc.resize n) sections = some strings := by
  unfold fillStringTable readStringTableAs
  cases findStringTable sections with
  | none => simp
  | some s =>
    cases hroom : alloc.resize s.sh_size with
    | false => simp [hroom]
    | true =>
      simp only [hroom, if_true]
      by_cases hz : s.sh_size = 0#32
      · simp [hz]
      · simp [hz]

/-- The constructor makes the object that `openElfFileAs` makes, if its vectors get their memory. -/
theorem construct_eq_ok_iff {read : Reader} {alloc : Allocator} {env : Surroundings}
    {file : List Byte} {elf : ElfFile} : construct read alloc env file = .ok elf ↔
      Constructed read {env with room := fun n => n ≠ 0#32 && alloc.resize n} file elf ∧
      (∀ i < elf.header.e_shnum.toNat, alloc.pushSection i = true) ∧
      ∀ i < elf.header.e_phnum.toNat, alloc.pushProgram i = true := by
  constructor
  · intro h
    obtain ⟨header,hheader,h⟩ := bind_eq_ok.mp h
    split at h
    · rename_i hmagick
      obtain ⟨sections,hsections,h⟩ := bind_eq_ok.mp h
      obtain ⟨strings,hstrings,h⟩ := bind_eq_ok.mp h
      obtain ⟨programs,hprograms,h⟩ := bind_eq_ok.mp h
      obtain rfl := Except.ok.inj h
      obtain ⟨hreads,hpushes⟩ := pushHeaders_eq_ok_iff.mp hsections
      obtain ⟨hreads',hpushes'⟩ := pushHeaders_eq_ok_iff.mp hprograms
      exact ⟨⟨rfl,checked_eq_ok.mp hheader,hmagick,hreads,fillStringTable_eq_ok_iff.mp hstrings,
        hreads'⟩,hpushes,hpushes'⟩
    · cases h
  · rintro ⟨⟨rfl,hheader,hmagick,hreads,hstrings,hreads'⟩,hpushes,hpushes'⟩
    refine bind_eq_ok.mpr ⟨elf.header,checked_eq_ok.mpr hheader,?_⟩
    rw [if_pos hmagick]
    refine bind_eq_ok.mpr ⟨elf.sectionHeaders,pushHeaders_eq_ok_iff.mpr ⟨hreads,hpushes⟩,?_⟩
    refine bind_eq_ok.mpr ⟨elf.stringTable,fillStringTable_eq_ok_iff.mpr hstrings,?_⟩
    exact bind_eq_ok.mpr ⟨elf.programHeaders,pushHeaders_eq_ok_iff.mpr ⟨hreads',hpushes'⟩,rfl⟩

/-- Where the first string table is held, its read alone decides whether it is brought. -/
theorem StringsHeld.exists_ok_iff {alloc : Allocator} {sections : List Elf32Shdr}
    (h : StringsHeld alloc sections) (answer : Word → Word → Option (List Byte)) :
    (∃ strings, fillStringTable answer alloc sections = .ok strings) ↔
      (readStringTableAs answer (fun _ => true) sections).isSome = true := by
  unfold StringsHeld at h
  unfold fillStringTable readStringTableAs
  cases hs : findStringTable sections with
  | none => simp
  | some s =>
    obtain ⟨hz,hroom⟩ := h s hs
    simp [hz, hroom, Option.isSome_iff_exists]

/-- The constructor ends normally or with an exception that main catches if and only if
its vectors hold what the file's tables bring. -/
theorem construct_endsCleanly_iff (read : Reader) (alloc : Allocator) (env : Surroundings)
    (file : List Byte) :
    EndsCleanly (construct read alloc env file) ↔ TablesHeld read alloc env := by
  unfold construct TablesHeld
  simp only [endsCleanly_bind, checked_endsCleanly, checked_eq_ok, true_and]
  refine forall_congr' fun header => imp_congr_right fun _ => ?_
  cases hmagick : validMagick header with
  | false => simp [caughtByMain]
  | true =>
    simp only [if_true, forall_const, endsCleanly_bind, pushHeaders_endsCleanly_iff]
    refine and_congr_right fun hheld => ?_
    simp only [hheld.eq_ok_iff, fillStringTable_endsCleanly_iff, endsCleanly_ok, implies_true,
      and_true]
    refine forall_congr' fun sections => imp_congr_right fun _ => and_congr_right fun hstrings => ?_
    rw [← hstrings.exists_ok_iff, forall_exists_index]

section sample

/-- A file of a header and one section header, that of a string table of `size` bytes. -/
def stringsFile (size : Word) : List Byte :=
  [0x7f#8,0x45#8,0x4c#8,0x46#8] ++ List.replicate 28 0#8 ++ bytes32 52#32 ++
    List.replicate 10 0#8 ++ [40#8,0#8,1#8] ++ List.replicate 3 0#8 ++
    [0#32,SHT_STRTAB,0#32,0#32,0#32,size,0#32,0#32,0#32,0#32].flatMap bytes32

/-- Memory for every request. -/
def plenty : Allocator := ⟨fun _ => true,fun _ => true,fun _ => true⟩

/-- An empty string table: the first element of an empty vector is addressed. -/
theorem emptyStrings_outOfRange :
    ¬ EndsCleanly (construct (fun _ => readFromFile (stringsFile 0#32)) plenty nowhere
      (stringsFile 0#32)) := by
  intro h
  exact h .outOfRange rfl

/-- With one byte it is a string table like any other. -/
example : EndsCleanly (construct (fun _ => readFromFile (stringsFile 1#32)) plenty nowhere
    (stringsFile 1#32)) := by
  intro e he
  cases he

end sample
end Line2.ElfLoader
