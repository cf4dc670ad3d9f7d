import Line2.ElfLoader.ElfFile
import Line2.Library.Layout
import Mathlib.Data.List.Forall2

/-! The file's records as little-endian bytes. Each is a layout of half words and
words, and is read from its bytes as it was laid out. -/
namespace Line2.ElfLoader
open Library.Memory Library.Layout

def Buffer.bytes (b : Buffer) (n : Nat) : List Byte := (List.range n).map b

/-- A kind of record: how the loader reads one, and how a file holds one. -/
structure Format (α : Type) where
  size : Nat
  ofBuffer : Buffer → α
  encode : α → List Byte
  Valid : α → Prop
  size_lt : size < 2^32
  valid_ofBuffer : ∀ b, Valid (ofBuffer b)
  encode_length : ∀ {p}, Valid p → (encode p).length = size
  encode_ofBuffer : ∀ b, encode (ofBuffer b) = b.bytes size
  ofBuffer_encode : ∀ {p b}, Valid p → b.bytes size = encode p → ofBuffer b = p

def Elf32Hdr.widths : List Nat := [2,2,4,4,4,4,4,2,2,2,2,2,2]

def Elf32Hdr.fields (h : Elf32Hdr) : List Nat :=
  [h.e_type.toNat,h.e_machine.toNat,h.e_version.toNat,h.e_entry.toNat,h.e_phoff.toNat,
    h.e_shoff.toNat,h.e_flags.toNat,h.e_ehsize.toNat,h.e_phentsize.toNat,h.e_phnum.toNat,
    h.e_shentsize.toNat,h.e_shnum.toNat,h.e_shtrndx.toNat]

def Elf32Hdr.encode (h : Elf32Hdr) : List Byte := h.e_ident ++ Library.Layout.encode widths h.fields

def Elf32Shdr.widths : List Nat := List.replicate 10 4

def Elf32Shdr.words (s : Elf32Shdr) : List Word :=
  [s.sh_name,s.sh_type,s.sh_flags,s.sh_addr,s.sh_offset,s.sh_size,s.sh_link,s.sh_info,
    s.sh_addralign,s.sh_entsize]

def Elf32Shdr.fields (s : Elf32Shdr) : List Nat := s.words.map BitVec.toNat

def Elf32Shdr.encode (s : Elf32Shdr) : List Byte := Library.Layout.encode widths s.fields

def Elf32Phdr.widths : List Nat := List.replicate 8 4

def Elf32Phdr.words (p : Elf32Phdr) : List Word :=
  [p.p_type,p.p_offset,p.p_vaddr,p.p_paddr,p.p_filesz,p.p_memsz,p.p_flags,p.p_align]

def Elf32Phdr.fields (p : Elf32Phdr) : List Nat := p.words.map BitVec.toNat

def Elf32Phdr.encode (p : Elf32Phdr) : List Byte := Library.Layout.encode widths p.fields

@[simp] theorem Buffer.bytes_length (b : Buffer) (n : Nat) : (b.bytes n).length = n := by
  simp [bytes]

/-- A buffer that starts with the bytes of a list. -/
theorem Buffer.bytes_getD (bs : List Byte) (stale : Buffer) :
    Buffer.bytes (fun k => (bs[k]?).getD (stale k)) bs.length = bs := by
  apply List.ext_getElem (by simp)
  intro k hk hk'
  simp [bytes, hk']

theorem Buffer.bytes_congr {b b' : Buffer} {n : Nat} :
    b.bytes n = b'.bytes n ↔ ∀ k < n, b k = b' k := by
  simp [bytes, List.map_inj_left]

theorem Buffer.half_toNat (b : Buffer) (k : Nat) :
    (b.half k).toNat = ofBytes [b k,b (k + 1)] := by
  have h0 := (b k).isLt
  have h1 := (b (k + 1)).isLt
  simp only [half, ofBytes, BitVec.toNat_ofNat]
  omega

theorem Buffer.word_toNat (b : Buffer) (k : Nat) :
    (b.word k).toNat = ofBytes [b k,b (k + 1),b (k + 2),b (k + 3)] := by
  have h0 := (b k).isLt
  have h1 := (b (k + 1)).isLt
  have h2 := (b (k + 2)).isLt
  have h3 := (b (k + 3)).isLt
  simp only [word, word32, ofBytes, BitVec.toNat_ofNat]
  omega

theorem Elf32Hdr.ofBuffer_fields (b : Buffer) :
    (ofBuffer b).fields = decode widths ((b.bytes size).drop 16) := by
  simp only [ofBuffer, fields, Buffer.half_toNat, Buffer.word_toNat]
  rfl

theorem Elf32Shdr.ofBuffer_fields (b : Buffer) :
    (ofBuffer b).fields = decode widths (b.bytes size) := by
  simp only [ofBuffer, fields, words, List.map_cons, List.map_nil, Buffer.word_toNat]
  rfl

theorem Elf32Phdr.ofBuffer_fields (b : Buffer) :
    (ofBuffer b).fields = decode widths (b.bytes size) := by
  simp only [ofBuffer, fields, words, List.map_cons, List.map_nil, Buffer.word_toNat]
  rfl

theorem Elf32Hdr.fits (h : Elf32Hdr) : Fits widths h.fields := by
  simp only [Fits, widths, fields, List.forall₂_cons, List.Forall₂.nil, and_true]
  simp only [show 256^2 = 2^16 from rfl, show 256^4 = 2^32 from rfl, BitVec.isLt, and_true]

theorem Elf32Shdr.fields_inj {s t : Elf32Shdr} (h : s.fields = t.fields) : s = t := by
  cases s
  cases t
  simpa [fields, words, BitVec.toNat_inj] using h

theorem Elf32Phdr.fields_inj {p q : Elf32Phdr} (h : p.fields = q.fields) : p = q := by
  cases p
  cases q
  simpa [fields, words, BitVec.toNat_inj] using h

theorem Elf32Hdr.fields_inj {h h' : Elf32Hdr} (hident : h.e_ident = h'.e_ident)
    (hfields : h.fields = h'.fields) : h = h' := by
  cases h
  cases h'
  simp only at hident
  simpa [fields, BitVec.toNat_inj, hident] using hfields

def hdrFormat : Format Elf32Hdr where
  size := Elf32Hdr.size
  ofBuffer := Elf32Hdr.ofBuffer
  encode := Elf32Hdr.encode
  Valid h := h.e_ident.length = 16
  size_lt := by decide
  valid_ofBuffer := fun _ => rfl
  encode_length := by
    intro h hident
    have hfields : Elf32Hdr.widths.length = h.fields.length := rfl
    rw [Elf32Hdr.encode, List.length_append, hident, encode_length hfields]
    rfl
  encode_ofBuffer := by
    intro b
    have hident : (Elf32Hdr.ofBuffer b).e_ident = (b.bytes Elf32Hdr.size).take 16 := rfl
    rw [Elf32Hdr.encode, Elf32Hdr.ofBuffer_fields, hident, encode_decode, List.take_append_drop]
    rfl
  ofBuffer_encode := by
    intro h b hident hb
    apply Elf32Hdr.fields_inj
    · change (b.bytes Elf32Hdr.size).take 16 = _
      rw [hb, Elf32Hdr.encode, List.take_left' hident]
    · rw [Elf32Hdr.ofBuffer_fields, hb, Elf32Hdr.encode, List.drop_left' hident,
        decode_encode h.fits]

/-- A record that is its fields, one after another. -/
def Format.ofFields {α : Type} (widths : List Nat) (size : Nat) (ofBuffer : Buffer → α)
    (fields : α → List Nat) (fits : ∀ p, Fits widths (fields p))
    (ofBuffer_fields : ∀ b, fields (ofBuffer b) = decode widths (b.bytes size))
    (fields_inj : ∀ {p q}, fields p = fields q → p = q) (total_eq : total widths = size)
    (size_lt : size < 2^32) : Format α where
  size := size
  ofBuffer := ofBuffer
  encode := fun p => Library.Layout.encode widths (fields p)
  Valid _ := True
  size_lt := size_lt
  valid_ofBuffer := fun _ => trivial
  encode_length := by
    intro p _
    rw [Library.Layout.encode_length (fits p).length_eq, total_eq]
  encode_ofBuffer := by
    intro b
    rw [ofBuffer_fields, encode_decode (by rw [total_eq, Buffer.bytes_length])]
  ofBuffer_encode := by
    intro p b _ hb
    apply fields_inj
    rw [ofBuffer_fields, hb, decode_encode (fits p)]

def shdrFormat : Format Elf32Shdr :=
  .ofFields Elf32Shdr.widths Elf32Shdr.size Elf32Shdr.ofBuffer Elf32Shdr.fields
    (fun s => fits_words s.words) Elf32Shdr.ofBuffer_fields Elf32Shdr.fields_inj rfl (by decide)

def phdrFormat : Format Elf32Phdr :=
  .ofFields Elf32Phdr.widths Elf32Phdr.size Elf32Phdr.ofBuffer Elf32Phdr.fields
    (fun p => fits_words p.words) Elf32Phdr.ofBuffer_fields Elf32Phdr.fields_inj rfl (by decide)

/-- Two buffers read as one record exactly when they hold the same bytes. -/
theorem Format.ofBuffer_eq_iff {α : Type} (f : Format α) {b b' : Buffer} :
    f.ofBuffer b = f.ofBuffer b' ↔ ∀ k < f.size, b k = b' k := by
  rw [← Buffer.bytes_congr]
  constructor
  · intro h
    rw [← f.encode_ofBuffer, ← f.encode_ofBuffer, h]
  · intro h
    apply f.ofBuffer_encode (f.valid_ofBuffer b')
    rw [h, f.encode_ofBuffer]

end Line2.ElfLoader
