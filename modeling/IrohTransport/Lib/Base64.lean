import Mathlib.Data.List.Basic
import Mathlib.Data.Fintype.Basic

/-!
# Base64 for URLs, without padding

Bytes are regrouped into digits of six bits, most significant first, and each digit is
written as a letter.  A last group of one or two bytes is filled up with zero bits and
takes two or three digits.  Reading is strict: it refuses bytes outside the alphabet, a
single digit at the end, and nonzero bits in the filling.

Main results:

- Theorem {lit}`Base64.fromDigits_toDigits`: regrouping is undone, for each of the three
  lengths a last group may have.
- Theorem {lit}`Base64.decode_bytes_encode`: reading the bytes of a written text gives
  back what was written.
-/

namespace IrohTransport.Base64

/-! ## Regrouping -/

/-- Split groups of three bytes into digits of six bits. -/
def toDigits : List UInt8 → List (Fin 64)
  | [] => []
  | [a] => [Fin.ofNat 64 (a.toNat / 4), Fin.ofNat 64 (a.toNat * 16)]
  | [a, b] =>
      [Fin.ofNat 64 (a.toNat / 4), Fin.ofNat 64 (a.toNat * 16 + b.toNat / 16),
        Fin.ofNat 64 (b.toNat * 4)]
  | a :: b :: c :: rest =>
      Fin.ofNat 64 (a.toNat / 4) :: Fin.ofNat 64 (a.toNat * 16 + b.toNat / 16)
        :: Fin.ofNat 64 (b.toNat * 4 + c.toNat / 64) :: Fin.ofNat 64 c.toNat :: toDigits rest

/-- Join groups of four digits into three bytes. -/
def fromDigits : List (Fin 64) → Option (List UInt8)
  | [] => some []
  | [_] => none
  | [w, x] => if x.val % 16 = 0 then some [UInt8.ofNat (w.val * 4 + x.val / 16)] else none
  | [w, x, y] =>
      if y.val % 4 = 0 then
        some [UInt8.ofNat (w.val * 4 + x.val / 16), UInt8.ofNat (x.val * 16 + y.val / 4)]
      else none
  | w :: x :: y :: z :: rest =>
      (fromDigits rest).map fun bytes =>
        UInt8.ofNat (w.val * 4 + x.val / 16) :: UInt8.ofNat (x.val * 16 + y.val / 4)
          :: UInt8.ofNat (y.val * 64 + z.val) :: bytes

/-- The first byte of a group, from its first two digits. -/
private theorem first_byte (a : UInt8) (low : Nat) (hlow : low < 16) :
    UInt8.ofNat ((Fin.ofNat 64 (a.toNat / 4)).val * 4
      + (Fin.ofNat 64 (a.toNat * 16 + low)).val / 16) = a := by
  have ha := a.toNat_lt
  rw [← UInt8.toNat_inj, UInt8.toNat_ofNat']
  simp only [Fin.val_ofNat]
  omega

/-- The second byte of a group, from its second and third digits. -/
private theorem second_byte (b : UInt8) (high low : Nat) (hlow : low < 4) :
    UInt8.ofNat ((Fin.ofNat 64 (high * 16 + b.toNat / 16)).val * 16
      + (Fin.ofNat 64 (b.toNat * 4 + low)).val / 4) = b := by
  have hb := b.toNat_lt
  rw [← UInt8.toNat_inj, UInt8.toNat_ofNat']
  simp only [Fin.val_ofNat]
  omega

/-- The third byte of a group, from its last two digits. -/
private theorem third_byte (c : UInt8) (high : Nat) :
    UInt8.ofNat ((Fin.ofNat 64 (high * 4 + c.toNat / 64)).val * 64
      + (Fin.ofNat 64 c.toNat).val) = c := by
  have hc := c.toNat_lt
  rw [← UInt8.toNat_inj, UInt8.toNat_ofNat']
  simp only [Fin.val_ofNat]
  omega

/-- Joining undoes splitting. -/
theorem fromDigits_toDigits (bytes : List UInt8) : fromDigits (toDigits bytes) = some bytes := by
  induction bytes using toDigits.induct with
  | case1 => rfl
  | case2 a =>
      have hfill : (Fin.ofNat 64 (a.toNat * 16)).val % 16 = 0 := by
        simp only [Fin.val_ofNat]
        omega
      have hfirst := first_byte a 0 (by decide)
      simp only [toDigits, fromDigits, hfill, if_true]
      exact congrArg (fun b => some [b]) hfirst
  | case3 a b =>
      have hfill : (Fin.ofNat 64 (b.toNat * 4)).val % 4 = 0 := by
        simp only [Fin.val_ofNat]
        omega
      have hb := b.toNat_lt
      have hsecond := second_byte b a.toNat 0 (by decide)
      simp only [toDigits, fromDigits, hfill, if_true]
      rw [first_byte a _ (by omega), ← Nat.add_zero (b.toNat * 4), hsecond]
  | case4 a b c rest ih =>
      have hb := b.toNat_lt
      have hc := c.toNat_lt
      simp only [toDigits, fromDigits, ih, Option.map_some]
      rw [first_byte a _ (by omega), second_byte b _ _ (by omega), third_byte]

/-! ## The alphabet -/

/-- The letter of a digit. -/
def symbol (digit : Fin 64) : Char :=
  "ABCDEFGHIJKLMNOPQRSTUVWXYZabcdefghijklmnopqrstuvwxyz0123456789-_".toList.getD digit.val 'A'

/-- The digit a byte stands for. -/
def value? (b : UInt8) : Option (Fin 64) :=
  (List.finRange 64).find? fun digit => (symbol digit).toNat == b.toNat

/-- Every letter takes one byte. -/
theorem utf8EncodeChar_symbol (digit : Fin 64) :
    String.utf8EncodeChar (symbol digit) = [UInt8.ofNat (symbol digit).toNat] := by
  revert digit
  decide +kernel

@[simp] theorem value?_symbol (digit : Fin 64) :
    value? (UInt8.ofNat (symbol digit).toNat) = some digit := by
  revert digit
  decide +kernel

/-! ## Texts -/

/-- The text of a byte string. -/
def encode (bytes : List UInt8) : String :=
  String.ofList ((toDigits bytes).map symbol)

/-- Read the bytes of a text. -/
def decode (text : List UInt8) : Option (List UInt8) :=
  (text.mapM value?).bind fromDigits

/-- The bytes of a text are those of its letters. -/
theorem bytes_encode (bytes : List UInt8) :
    (encode bytes).toByteArray.data.toList
      = (toDigits bytes).map fun digit => UInt8.ofNat (symbol digit).toNat := by
  rw [encode, String.toByteArray_ofList]
  induction toDigits bytes with
  | nil => simp
  | cons digit digits ih =>
      rw [List.map_cons, List.utf8Encode_cons, List.utf8Encode_singleton, utf8EncodeChar_symbol]
      simp [ih]

/-- Reading the bytes of a written text gives back what was written. -/
theorem decode_bytes_encode (bytes : List UInt8) :
    decode (encode bytes).toByteArray.data.toList = some bytes := by
  have hread : ∀ digits : List (Fin 64),
      (digits.map fun digit => UInt8.ofNat (symbol digit).toNat).mapM value? = some digits := by
    intro digits
    induction digits with
    | nil => rfl
    | cons digit digits ih => simp [ih]
  rw [decode, bytes_encode, hread]
  exact fromDigits_toDigits bytes

example : encode [77] = "TQ" ∧ encode [77, 97] = "TWE" ∧ encode [77, 97, 110] = "TWFu" := by
  decide +kernel

end IrohTransport.Base64
