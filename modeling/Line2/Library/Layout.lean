import Line2.Library.Memory
import Mathlib.Data.List.Basic

/-! Records of fixed width. A record is a list of numbers laid out one after
another, each in as many bytes as its field has, the least significant first. -/
namespace Line2.Library.Layout
open Memory

/-- The `w` bytes of a number. -/
def toBytes : Nat → Nat → List Byte
  | 0, _ => []
  | w + 1, n => BitVec.ofNat 8 n :: toBytes w (n / 256)

def ofBytes : List Byte → Nat
  | [] => 0
  | b :: bs => b.toNat + 256 * ofBytes bs

/-- The fields laid out in order, of these widths. -/
def encode : List Nat → List Nat → List Byte
  | w :: widths, n :: fields => toBytes w n ++ encode widths fields
  | _, _ => []

def decode : List Nat → List Byte → List Nat
  | [], _ => []
  | w :: widths, bs => ofBytes (bs.take w) :: decode widths (bs.drop w)

/-- How many bytes a record takes. -/
def total : List Nat → Nat
  | [] => 0
  | w :: widths => w + total widths

/-- Each field's number fits its width. -/
def Fits (widths fields : List Nat) : Prop := List.Forall₂ (fun w n => n < 256^w) widths fields

@[simp] theorem toBytes_length (w n : Nat) : (toBytes w n).length = w := by
  induction w generalizing n with
  | zero => rfl
  | succ w ih => rw [toBytes, List.length_cons, ih]

theorem ofBytes_toBytes {w n : Nat} (h : n < 256^w) : ofBytes (toBytes w n) = n := by
  induction w generalizing n with
  | zero =>
    rw [Nat.pow_zero] at h
    exact (Nat.lt_one_iff.mp h).symm
  | succ w ih =>
    have hrest : n / 256 < 256^w := Nat.div_lt_of_lt_mul (by rwa [Nat.pow_succ'] at h)
    rw [toBytes, ofBytes, ih hrest, BitVec.toNat_ofNat]
    omega

theorem toBytes_ofBytes (bs : List Byte) : toBytes bs.length (ofBytes bs) = bs := by
  induction bs with
  | nil => rfl
  | cons b bs ih =>
    have hb := b.isLt
    have hdiv : (b.toNat + 256 * ofBytes bs) / 256 = ofBytes bs := by omega
    rw [List.length_cons, ofBytes, toBytes, hdiv, ih, List.cons.injEq, and_iff_left rfl]
    apply BitVec.eq_of_toNat_eq
    rw [BitVec.toNat_ofNat]
    omega

theorem fits_words (ws : List Word) : Fits (List.replicate ws.length 4) (ws.map BitVec.toNat) := by
  induction ws with
  | nil => exact .nil
  | cons w ws ih => exact .cons w.isLt ih

theorem encode_length {widths fields : List Nat} (h : widths.length = fields.length) :
    (encode widths fields).length = total widths := by
  induction widths generalizing fields with
  | nil => rfl
  | cons w widths ih =>
    cases fields with
    | nil => cases h
    | cons n fields =>
      rw [List.length_cons, List.length_cons, Nat.add_right_cancel_iff] at h
      rw [encode, List.length_append, toBytes_length, ih h, total]

/-- What was laid out is read back. -/
theorem decode_encode {widths fields : List Nat} (h : Fits widths fields) :
    decode widths (encode widths fields) = fields := by
  induction h with
  | nil => rfl
  | @cons w n widths fields hn _ ih =>
    have hlen := toBytes_length w n
    rw [encode, decode, List.take_left' hlen, List.drop_left' hlen, ofBytes_toBytes hn, ih]

/-- The fields read from bytes lay out as these bytes. -/
theorem encode_decode {widths : List Nat} {bs : List Byte} (h : total widths = bs.length) :
    encode widths (decode widths bs) = bs := by
  induction widths generalizing bs with
  | nil => exact (List.length_eq_zero_iff.mp h.symm).symm
  | cons w widths ih =>
    rw [total] at h
    have hlen : (bs.take w).length = w := by
      rw [List.length_take]
      omega
    have hhead := toBytes_ofBytes (bs.take w)
    rw [hlen] at hhead
    rw [decode, encode, hhead, ih (by rw [List.length_drop]; omega), List.take_append_drop]

end Line2.Library.Layout
