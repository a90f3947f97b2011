import Mathlib.Data.List.Basic
import Mathlib.Data.List.Flatten
import Mathlib.Algebra.Order.BigOperators.Group.List
import Mathlib.Data.List.Perm.Subperm

/-!
# Self-delimiting byte codecs

A codec writes a value as bytes and reads one back from the front of a byte
string, leaving the rest.  The law it carries says that reading undoes writing
whatever follows, so a concatenation of encodings has one reading only: no value
runs into the next.  The combinators follow the postcard wire format, in which
integers are LEB128 varints, sequences are prefixed by their length and the fields
of a record follow one another.

Main results:

- Theorem {lit}`Codec.append_inj`: two encodings that start one byte string are
  the encodings of one value.
- Definition {lit}`Codec.nat`: the varint codec, with its round trip in
  {lit}`decodeVarint_encodeVarint`.
- Definitions {lit}`Codec.pair`, {lit}`Codec.list`, {lit}`Codec.array` and
  {lit}`Codec.refine` build codecs of records and sequences.
- Theorem {lit}`Codec.length_encode_list_le`: fewer elements make a shorter
  sequence.
-/

namespace IrohTransport

universe u v

/-- A way of writing values as bytes in which every encoding delimits itself. -/
structure Codec (α : Type u) where
  encode : α → List UInt8
  decode : List UInt8 → Option (α × List UInt8)
  decode_encode : ∀ x rest, decode (encode x ++ rest) = some (x, rest)

namespace Codec

variable {α : Type u} {β : Type v}

attribute [simp] decode_encode

/-- Encodings that start one byte string encode one value, and what follows them
agrees. -/
theorem append_inj (c : Codec α) {x y : α} {r t : List UInt8}
    (h : c.encode x ++ r = c.encode y ++ t) : x = y ∧ r = t := by
  have hx := c.decode_encode x r
  rw [h, c.decode_encode y t] at hx
  simpa [eq_comm] using hx

/-- An encoding determines its value. -/
theorem encode_injective (c : Codec α) : Function.Injective c.encode := by
  intro x y h
  exact (c.append_inj (r := []) (t := []) (by rw [h])).1

/-- Read one value and drop what follows it. -/
def fromBytes (c : Codec α) (bytes : List UInt8) : Option α :=
  (c.decode bytes).map Prod.fst

@[simp] theorem fromBytes_encode (c : Codec α) (x : α) :
    c.fromBytes (c.encode x) = some x := by
  have h := c.decode_encode x []
  rw [List.append_nil] at h
  simp [fromBytes, h]

/-! ## Bytes and records -/

/-- A single byte stands for itself. -/
def byte : Codec UInt8 where
  encode b := [b]
  decode
    | [] => none
    | b :: rest => some (b, rest)
  decode_encode _ _ := rfl

/-- Two fields, one after the other. -/
def pair (c : Codec α) (d : Codec β) : Codec (α × β) where
  encode x := c.encode x.1 ++ d.encode x.2
  decode bytes :=
    (c.decode bytes).bind fun a =>
      (d.decode a.2).map fun b => ((a.1, b.1), b.2)
  decode_encode x rest := by
    simp [List.append_assoc]

/-- Write a value through a representation {lit}`f`; reading may refuse
representations of no value. -/
def refine (c : Codec β) (f : α → β) (g : β → Option α) (h : ∀ a, g (f a) = some a) :
    Codec α where
  encode a := c.encode (f a)
  decode bytes := (c.decode bytes).bind fun b => (g b.1).map fun a => (a, b.2)
  decode_encode a rest := by
    simp [h]

/-! ## Varints -/

/-- The LEB128 bytes of a number: seven bits a byte, least significant first, the
high bit set on every byte but the last.  The first argument bounds the bytes. -/
def encodeVarint : Nat → Nat → List UInt8
  | 0, _ => []
  | k + 1, n =>
      if n < 128 then [UInt8.ofNat n]
      else UInt8.ofNat (n % 128 + 128) :: encodeVarint k (n / 128)

/-- Read LEB128 bytes up to the first one without its high bit. -/
def decodeVarint : List UInt8 → Option (Nat × List UInt8)
  | [] => none
  | b :: rest =>
      if b.toNat < 128 then some (b.toNat, rest)
      else (decodeVarint rest).map fun x => (b.toNat - 128 + 128 * x.1, x.2)

/-- Reading undoes writing when the bytes suffice for the number. -/
theorem decodeVarint_encodeVarint {k n : Nat} (hk : n < 128 ^ k) (rest : List UInt8) :
    decodeVarint (encodeVarint (k + 1) n ++ rest) = some (n, rest) := by
  induction k generalizing n with
  | zero =>
      have hn : n < 128 := by simp at hk; omega
      simp [encodeVarint, hn, decodeVarint, UInt8.toNat_ofNat_of_lt' (show n < 256 by omega)]
  | succ k ih =>
      unfold encodeVarint
      split <;> rename_i hn
      · simp [decodeVarint, hn, UInt8.toNat_ofNat_of_lt' (show n < 256 by omega)]
      · have hdiv : n / 128 < 128 ^ k := by
          rw [Nat.div_lt_iff_lt_mul (by decide)]
          rwa [pow_succ] at hk
        have hbyte : (UInt8.ofNat (n % 128 + 128)).toNat = n % 128 + 128 :=
          UInt8.toNat_ofNat_of_lt' (show _ < 256 by omega)
        simp only [List.cons_append, decodeVarint, hbyte, ih hdiv, Option.map_some]
        rw [if_neg (by omega)]
        simp only [Option.some.injEq, Prod.mk.injEq, and_true]
        omega

/-- A number of seven times {lit}`k` bits takes at most {lit}`k` bytes. -/
theorem length_encodeVarint_le {k n : Nat} (b : Nat) (hn : n < 128 ^ k) (hk : 0 < k) :
    (encodeVarint b n).length ≤ k := by
  induction b generalizing n k with
  | zero => simp [encodeVarint]
  | succ b ih =>
      unfold encodeVarint
      split <;> rename_i hlt
      · exact hk
      · have hdiv : n / 128 < 128 ^ (k - 1) := by
          rw [Nat.div_lt_iff_lt_mul (by decide), ← pow_succ, Nat.sub_add_cancel hk]
          exact hn
        have hpos : 0 < k - 1 := by
          by_contra hzero
          have : k = 1 := by omega
          simp [this] at hn
          omega
        have := ih hdiv hpos
        simp only [List.length_cons]
        omega

/-- Larger numbers take at least as many bytes. -/
theorem length_encodeVarint_mono {b c m n : Nat} (hbc : b ≤ c) (hmn : m ≤ n) :
    (encodeVarint b m).length ≤ (encodeVarint c n).length := by
  induction b generalizing c m n with
  | zero => simp [encodeVarint]
  | succ b ih =>
      obtain ⟨d, rfl⟩ : ∃ d, c = d + 1 := ⟨c - 1, by omega⟩
      unfold encodeVarint
      split <;> rename_i hm <;> split <;> rename_i hn
      · simp
      · simp
      · omega
      · have := ih (c := d) (by omega) (Nat.div_le_div_right (c := 128) hmn)
        simpa using this

/-- Numbers as varints.  A number below 2^64 is refused when it is padded beyond the
ten bytes an integer of 64 bits may take. -/
def nat : Codec Nat where
  encode n := encodeVarint (n + 1) n
  decode bytes :=
    (decodeVarint bytes).bind fun x =>
      if x.1 < 2 ^ 64 ∧ 10 < bytes.length - x.2.length then none else some x
  decode_encode n rest := by
    have hlt : n < 128 ^ n := Nat.lt_pow_self (by decide)
    rw [decodeVarint_encodeVarint hlt]
    have hshort : n < 2 ^ 64 → (encodeVarint (n + 1) n).length ≤ 10 := fun h =>
      length_encodeVarint_le _ (by omega) (by decide)
    simp only [Option.bind_some, List.length_append, Nat.add_sub_cancel]
    rw [if_neg]
    rintro ⟨h64, hlong⟩
    have := hshort h64
    omega

theorem length_encode_nat_mono {m n : Nat} (h : m ≤ n) :
    (nat.encode m).length ≤ (nat.encode n).length :=
  length_encodeVarint_mono (by omega) h

/-- Unsigned 64-bit integers as varints. -/
def u64 : Codec UInt64 :=
  nat.refine UInt64.toNat
    (fun n => if n < 2 ^ 64 then some (UInt64.ofNat n) else none)
    (fun a => by rw [if_pos a.toNat_lt, UInt64.ofNat_toNat])

/-! ## Fixed-width integers -/

/-- The {lit}`k` low bytes of a number, least significant first. -/
def leBytes : Nat → Nat → List UInt8
  | 0, _ => []
  | k + 1, n => UInt8.ofNat (n % 256) :: leBytes k (n / 256)

@[simp] theorem length_leBytes (k n : Nat) : (leBytes k n).length = k := by
  induction k generalizing n with
  | zero => rfl
  | succ k ih => simp [leBytes, ih]

/-- The low bytes determine a number that has no others. -/
theorem leBytes_injOn {k m n : Nat} (hm : m < 256 ^ k) (hn : n < 256 ^ k)
    (h : leBytes k m = leBytes k n) : m = n := by
  induction k generalizing m n with
  | zero => simp at hm hn; omega
  | succ k ih =>
      rcases List.cons.inj h with ⟨hlow, hhigh⟩
      have hdiv : ∀ {l}, l < 256 ^ (k + 1) → l / 256 < 256 ^ k := fun hl =>
        (Nat.div_lt_iff_lt_mul (by decide)).mpr (by rwa [pow_succ] at hl)
      have hbyte := congrArg UInt8.toNat hlow
      rw [UInt8.toNat_ofNat_of_lt' (show m % 256 < 256 by omega),
        UInt8.toNat_ofNat_of_lt' (show n % 256 < 256 by omega)] at hbyte
      have hquot := ih (hdiv hm) (hdiv hn) hhigh
      omega

/-! ## Sequences -/

/-- Read a given number of elements. -/
def decodeMany (c : Codec α) : Nat → List UInt8 → Option (List α × List UInt8)
  | 0, bytes => some ([], bytes)
  | n + 1, bytes =>
      (c.decode bytes).bind fun x =>
        (decodeMany c n x.2).map fun xs => (x.1 :: xs.1, xs.2)

/-- The elements of a sequence are read back one after the other. -/
theorem decodeMany_flatMap (c : Codec α) (xs : List α) (rest : List UInt8) :
    c.decodeMany xs.length (xs.flatMap c.encode ++ rest) = some (xs, rest) := by
  induction xs with
  | nil => rfl
  | cons x xs ih =>
      simp [decodeMany, List.append_assoc, ih]

/-- Elements as many as the type says, with no prefix. -/
def array (c : Codec α) (n : Nat) : Codec {l : List α // l.length = n} where
  encode x := x.1.flatMap c.encode
  decode bytes :=
    (c.decodeMany n bytes).bind fun x =>
      if h : x.1.length = n then some (⟨x.1, h⟩, x.2) else none
  decode_encode := by
    rintro ⟨x, rfl⟩ rest
    simp [decodeMany_flatMap]

/-- Elements prefixed by their number. -/
def list (c : Codec α) : Codec (List α) where
  encode xs := nat.encode xs.length ++ xs.flatMap c.encode
  decode bytes := (nat.decode bytes).bind fun n => c.decodeMany n.1 n.2
  decode_encode xs rest := by
    simp [List.append_assoc, decodeMany_flatMap]

/-- Dropping and reordering elements never makes a sequence longer. -/
theorem length_encode_list_le (c : Codec α) {xs ys : List α} (h : xs.Subperm ys) :
    (c.list.encode xs).length ≤ (c.list.encode ys).length := by
  have helems : (xs.flatMap c.encode).length ≤ (ys.flatMap c.encode).length := by
    rcases h with ⟨zs, hperm, hsub⟩
    rw [← (hperm.flatMap_right c.encode).length_eq]
    exact (hsub.flatMap c.encode).length_le
  have hlength := length_encode_nat_mono h.length_le
  simp only [list, List.length_append]
  omega

/-- A text is the sequence of its UTF-8 bytes; other bytes are refused. -/
def string : Codec String :=
  byte.list.refine (fun s => s.toByteArray.data.toList)
    (fun bytes => String.fromUTF8? ⟨bytes.toArray⟩)
    (fun s => by
      simp only [String.fromUTF8?, Array.toArray_toList, Option.dite_none_right_eq_some]
      exact ⟨s.isValidUTF8, rfl⟩)

end Codec

end IrohTransport
