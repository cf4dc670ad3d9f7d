import Line2.ElfLoader.Constructor
import Line2.Library.Ledger

/-! The loader's kernel handles. The destructor closes the file for an object that was
constructed; a section's wrapper closes only what it held before it was assigned to. -/
namespace Line2.ElfLoader
open Library.Memory Library.Ledger

abbrev Handle := Word

abbrev HandleEvent := Event Handle

structure NtHandle where
  m_Handle : Handle

def NtHandle.closeHandle (n : NtHandle) : List HandleEvent :=
  if n.m_Handle ≠ 0#32 then [.released n.m_Handle] else []

/-- The class has no destructor of its own. -/
def NtHandle.destroy (_ : NtHandle) : List HandleEvent := []

/-- How the system answers one call of Map, and whether what it throws is caught while
the object is still in scope. -/
structure MapCall where
  createSection : Option Handle
  mapView : Option Addr
  refused : Nat → Bool
  caught : Bool

def MapCall.answers (c : MapCall) : MapAnswers := ⟨c.createSection.isSome,c.mapView,c.refused⟩

/-- What Map does to handles: `operator &` on the fresh wrapper, the section if it is
made, and the wrapper's end, which every exit comes to. -/
def MapCall.events (c : MapCall) : List HandleEvent :=
  let hSection : NtHandle := ⟨0#32⟩
  hSection.closeHandle ++
    match c.createSection with
    | none => hSection.destroy
    | some h => .acquired h :: NtHandle.destroy ⟨h⟩

/-- Calls of Map one after another, up to one that throws and is not caught. -/
def mapCalls (elf : ElfFile) : List MapCall → Mem → List HandleEvent
  | [], _ => []
  | c :: calls, m =>
    let r := elf.map c.answers m
    c.events ++ if r.returned || c.caught then mapCalls elf calls r.mem else []

/-- A run of the loader: what NtOpenFile answers, the file's bytes and how the
constructor's reads of them are answered, and the calls of Map. -/
structure LoaderRun where
  openFile : Option Handle
  file : List Byte
  read : Reader
  env : Surroundings
  calls : List MapCall

/-- Every handle event of the run. An object whose constructor threw is not destroyed,
and its file is a plain handle. -/
def LoaderRun.events (run : LoaderRun) (m : Mem) : List HandleEvent :=
  match run.openFile with
  | none => []
  | some m_File =>
    .acquired m_File ::
      match openElfFileAs run.read run.env run.file with
      | none => []
      | some elf => mapCalls elf run.calls m ++ [.released m_File]

/-- No call of Map that the run comes to makes a section. -/
def NoSection : List MapCall → Prop
  | [] => True
  | c :: calls => c.createSection = none ∧ (c.caught = true → NoSection calls)

theorem MapCall.events_eq (c : MapCall) : c.events = (c.createSection.map .acquired).toList := by
  unfold events
  cases c.createSection with
  | none => rfl
  | some h => rfl

theorem map_returned_section {elf : ElfFile} {c : MapCall} {m : Mem}
    (h : c.createSection = none) : (elf.map c.answers m).returned = false := by
  simp [ElfFile.map, MapAnswers.view, MapCall.answers, h]

theorem mapCalls_no_release (elf : ElfFile) (calls : List MapCall) (m : Mem) (h : Handle) :
    .released h ∉ mapCalls elf calls m := by
  induction calls generalizing m with
  | nil => exact List.not_mem_nil
  | cons c calls ih =>
    rw [mapCalls, List.mem_append, MapCall.events_eq, not_or]
    constructor
    · cases c.createSection <;> simp
    · split
      · exact ih _
      · exact List.not_mem_nil

theorem mapCalls_eq_nil_iff (elf : ElfFile) (calls : List MapCall) (m : Mem) :
    mapCalls elf calls m = [] ↔ NoSection calls := by
  induction calls generalizing m with
  | nil => exact iff_of_true rfl trivial
  | cons c calls ih =>
    rw [mapCalls, List.append_eq_nil_iff, MapCall.events_eq, NoSection]
    cases hs : c.createSection with
    | none =>
      rw [map_returned_section hs]
      cases c.caught with
      | false => simp
      | true => simp [ih]
    | some h => simp

/-- The run closes each handle as often as it opened it if and only if it opened no
file, or constructed the object and made no section. -/
theorem handles_balanced_iff (run : LoaderRun) (m : Mem) :
    Balanced (run.events m) ↔
      (∀ m_File, run.openFile = some m_File →
        (∃ elf, Constructed run.read run.env run.file elf) ∧ NoSection run.calls) := by
  unfold LoaderRun.events
  cases run.openFile with
  | none => exact iff_of_true balanced_nil (fun _ h => nomatch h)
  | some m_File =>
    have hsome : (∀ h, some m_File = some h →
        (∃ elf, Constructed run.read run.env run.file elf) ∧ NoSection run.calls) ↔
        (∃ elf, Constructed run.read run.env run.file elf) ∧ NoSection run.calls :=
      ⟨fun h => h m_File rfl,fun h _ _ => h⟩
    rw [hsome]
    simp only [← openElfFileAs_eq_some_iff]
    cases openElfFileAs run.read run.env run.file with
    | none =>
      have hopen : ∀ h, Event.released h ∉ [Event.acquired m_File] := by simp
      simp [balanced_iff_nil hopen]
    | some elf =>
      dsimp only
      rw [balanced_bracket, balanced_iff_nil (mapCalls_no_release elf run.calls m),
        mapCalls_eq_nil_iff]
      simp

section sample

/-- A run without any failure: the file is handle 3 and the section handle 7. -/
def cleanRun : LoaderRun where
  openFile := some 3#32
  file := tinyFile 8#32
  read := fun _ => readFromFile (tinyFile 8#32)
  env := nowhere
  calls := [⟨some 7#32,some 0x10000#32,fun _ => false,false⟩]

/-- The section is never closed. -/
theorem cleanRun_leaks : ¬ Balanced (cleanRun.events fun _ => 0#8) := by
  intro h
  exact absurd (h 7#32) (by decide +kernel)

end sample
end Line2.ElfLoader
