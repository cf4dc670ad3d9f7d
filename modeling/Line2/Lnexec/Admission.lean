import Line2.ElfLoader.ConstructorEnds
import Line2.ElfLoader.ImageFidelity
import Line2.ElfLoader.TableSoundness
import Line2.Lnexec.Startup

/-! Which files main enters. The loader validates the magic and reads the tables that
the header tells of; nothing looks at what kind of ELF file it is, or where its entry
point lies. -/
namespace Line2.Lnexec
open Library.Memory ElfLoader

/-- The path's file opens, and neither the constructor nor Map throws. -/
structure Admitted (host : Host) (path : List Byte) (elf : ElfFile) : Prop where
  opened : host.openFile path = some elf.file
  constructed : Constructed (host.read elf.file) host.env elf.file elf
  mapped : (elf.map host.map host.mem).returned = true

/-- The program headers that the constructor takes from a file. -/
def programsTaken (env : Surroundings) (file : List Byte) : List Elf32Phdr :=
  let h := headerTaken env file
  entriesTaken phdrFormat file env.phdr h.e_phoff h.e_phentsize h.e_phnum

/-- main jumps for what is admitted, to its entry point, and for nothing else. -/
theorem main_eq_jumped_iff {host : Host} {lnexec path : List Byte} {args : List (List Byte)}
    {s : Ia32.State} : main host (lnexec :: path :: args) = .jumped s ↔
      ∃ elf, Admitted host path elf ∧
        s = start (getEntryPoint elf) (host.machine (elf.map host.map host.mem)) := by
  simp only [main]
  constructor
  · intro h
    split at h
    · cases h
    · rename_i file hopen
      split at h
      · cases h
      · rename_i elf helf
        have hc := openElfFileAs_eq_some_iff.mp helf
        obtain rfl := hc.file
        split at h
        · rename_i hmapped
          exact ⟨elf,⟨hopen,hc,hmapped⟩,(Outcome.jumped.inj h).symm⟩
        · cases h
  · rintro ⟨elf,⟨hopen,hc,hmapped⟩,rfl⟩
    rw [hopen]
    simp only [openElfFileAs_eq_some_iff.mpr hc, hmapped, if_true]

section fileBytes
variable {host : Host} {path file : List Byte} {elf : ElfFile}
  (hopen : host.openFile path = some file) (hread : ∀ i, host.read file i = readAt file)
include hopen hread

private theorem Admitted.openedAs (h : Admitted host path elf) :
    elf.file = file ∧ openElfFileAs (fun _ => readAt file) host.env file = some elf := by
  have hfile : elf.file = file := Option.some.inj (h.opened.symm.trans hopen)
  have hconstructed := h.constructed
  rw [hfile, show host.read file = fun _ => readAt file from funext hread] at hconstructed
  exact ⟨hfile,openElfFileAs_eq_some_iff.mpr hconstructed⟩

/-- What is admitted was taken from the file. -/
theorem Admitted.taken (h : Admitted host path elf) : elf.file = file ∧
    elf.header = headerTaken host.env file ∧ elf.programHeaders = programsTaken host.env file := by
  obtain ⟨hfile,helf⟩ := h.openedAs hopen hread
  obtain ⟨_,hheader,_,hprograms⟩ := openElfFileAs_taken helf
  rw [hheader] at hprograms
  exact ⟨hfile,hheader,hprograms⟩

end fileBytes

section sample

end sample
end Line2.Lnexec
