import PyTcp.Address
import Mathlib.Data.List.Basic

namespace PyTcp

/-- The `width` bytes of `value` in network order, as `struct.pack` writes an unsigned field
of that width (`B`, `H`, `L`) whose value fits. -/
def bytesBE : Nat → Nat → List UInt8
  | 0, _ => []
  | width + 1, value => bytesBE width (value / 256) ++ [(value % 256).toUInt8]

/-- `struct.pack` of one unsigned field of `width` bytes: its bytes, or `none` for the
`struct.error` of a value that does not fit. -/
def packUInt (width value : Nat) : Option (List UInt8) :=
  if value < 2 ^ (8 * width) then some (bytesBE width value) else none

/-- `struct.unpack_from` of one unsigned field of `width` bytes at `offset`. -/
def unpackFrom (frame : List UInt8) (offset width : Nat) : Nat :=
  bigEndian ((frame.drop offset).take width)

@[simp]
theorem length_bytesBE (width value : Nat) : (bytesBE width value).length = width := by
  induction width generalizing value with
  | zero => rfl
  | succ width ih => simp [bytesBE, ih]

theorem bigEndian_append_byte (bytes : List UInt8) (byte : UInt8) :
    bigEndian (bytes ++ [byte]) = bigEndian bytes * 256 + byte.toNat := by
  simp [bigEndian, List.foldl_append]

theorem bigEndian_append (front back : List UInt8) :
    bigEndian (front ++ back) = bigEndian front * 2 ^ (8 * back.length) + bigEndian back := by
  have shift : ∀ (acc : Nat) (bytes : List UInt8),
      bytes.foldl (fun acc byte => acc * 256 + byte.toNat) acc =
        acc * 2 ^ (8 * bytes.length) + bigEndian bytes := by
    intro acc bytes
    induction bytes generalizing acc with
    | nil => simp [bigEndian]
    | cons byte rest ih =>
      have head : bigEndian (byte :: rest) =
          (0 * 256 + byte.toNat) * 2 ^ (8 * rest.length) + bigEndian rest := ih _
      rw [List.foldl_cons, ih, head, List.length_cons, Nat.mul_add 8, Nat.pow_add]
      ring
  simp only [bigEndian, List.foldl_append]
  exact shift _ back

/-- Reading back what `bytesBE` wrote gives the value modulo the field's range. -/
theorem bigEndian_bytesBE (width value : Nat) :
    bigEndian (bytesBE width value) = value % 2 ^ (8 * width) := by
  induction width generalizing value with
  | zero => simp [bytesBE, bigEndian, Nat.mod_one]
  | succ width ih =>
    have low : ((value % 256).toUInt8).toNat = value % 256 :=
      UInt8.toNat_ofNat_of_lt (Nat.mod_lt _ (by decide))
    calc bigEndian (bytesBE (width + 1) value)
        = value / 256 % 2 ^ (8 * width) * 256 + value % 256 := by
          rw [bytesBE, bigEndian_append_byte, ih, low]
      _ = value % (256 * 2 ^ (8 * width)) := by rw [Nat.mod_mul]; ring
      _ = value % 2 ^ (8 * (width + 1)) := by rw [Nat.mul_succ, Nat.pow_add, Nat.mul_comm]

/-- A field's bytes depend only on the value modulo the field's range. -/
theorem bytesBE_mod (width value : Nat) : bytesBE width (value % 2 ^ (8 * width)) = bytesBE width value := by
  induction width generalizing value with
  | zero => rfl
  | succ width ih =>
    have split : 2 ^ (8 * (width + 1)) = 256 * 2 ^ (8 * width) := by
      rw [Nat.mul_succ, Nat.pow_add, Nat.mul_comm]
    simp only [bytesBE, split, Nat.mod_mul_right_div_self, Nat.mod_mul_right_mod, ih]

/-- The bytes of a wide field are those of its high part, then those of its low part. -/
theorem bytesBE_add (high low value : Nat) :
    bytesBE (high + low) value = bytesBE high (value >>> (8 * low)) ++ bytesBE low value := by
  induction low generalizing value with
  | zero => simp [bytesBE]
  | succ low ih =>
    have shifted : (value / 256) >>> (8 * low) = value >>> (8 * (low + 1)) := by
      rw [Nat.mul_succ, Nat.add_comm, Nat.shiftRight_add, Nat.shiftRight_eq_div_pow value 8]
    rw [Nat.add_succ, bytesBE, ih, shifted, bytesBE, List.append_assoc]

/-- Writing back what `struct.unpack` read gives the same bytes. -/
theorem bytesBE_bigEndian (bytes : List UInt8) : bytesBE bytes.length (bigEndian bytes) = bytes := by
  induction bytes using List.reverseRecOn with
  | nil => rfl
  | append_singleton front byte ih =>
    have small : byte.toNat < 256 := byte.toNat_lt_size
    have high : (bigEndian front * 256 + byte.toNat) / 256 = bigEndian front := by omega
    have low : (bigEndian front * 256 + byte.toNat) % 256 = byte.toNat := by omega
    have same : byte.toNat.toUInt8 = byte := UInt8.toNat.inj (UInt8.toNat_ofNat_of_lt small)
    rw [List.length_append, List.length_singleton, bytesBE, bigEndian_append_byte, high, low, ih,
      same]

theorem bigEndian_bytesBE_of_lt {width value : Nat} (fits : value < 2 ^ (8 * width)) :
    bigEndian (bytesBE width value) = value := by
  rw [bigEndian_bytesBE, Nat.mod_eq_of_lt fits]

/-- `struct.unpack_from` at the offset where a field was packed reads the field back. -/
theorem unpackFrom_bytesBE (pre post : List UInt8) {width value : Nat}
    (fits : value < 2 ^ (8 * width)) :
    unpackFrom (pre ++ bytesBE width value ++ post) pre.length width = value := by
  simp [unpackFrom, List.drop_left', List.take_left', bigEndian_bytesBE_of_lt fits]

/-- Two fields of one width that fit it and start equal byte strings are equal, and so is what
follows them. -/
theorem bytesBE_append_inj {width first second : Nat} {firstRest secondRest : List UInt8}
    (same : bytesBE width first ++ firstRest = bytesBE width second ++ secondRest)
    (firstFits : first < 2 ^ (8 * width)) (secondFits : second < 2 ^ (8 * width)) :
    first = second ∧ firstRest = secondRest := by
  obtain ⟨front, back⟩ := List.append_inj same (by simp only [length_bytesBE])
  refine ⟨?_, back⟩
  rw [← bigEndian_bytesBE_of_lt firstFits, front, bigEndian_bytesBE_of_lt secondFits]

theorem unpackFrom_lt (frame : List UInt8) (offset width : Nat) :
    unpackFrom frame offset width < 2 ^ (8 * width) :=
  calc unpackFrom frame offset width < 2 ^ (8 * ((frame.drop offset).take width).length) :=
        bigEndian_lt _
    _ ≤ 2 ^ (8 * width) := Nat.pow_le_pow_right (by decide) (by simp)

theorem unpackFrom_append_of_le (pre rest : List UInt8) {offset : Nat} (width : Nat)
    (after : pre.length ≤ offset) :
    unpackFrom (pre ++ rest) offset width = unpackFrom rest (offset - pre.length) width := by
  simp [unpackFrom, List.drop_append_eq_append_drop, List.drop_eq_nil_of_le after]

theorem unpackFrom_bytesBE_append (rest : List UInt8) {width value : Nat}
    (fits : value < 2 ^ (8 * width)) : unpackFrom (bytesBE width value ++ rest) 0 width = value := by
  simpa using unpackFrom_bytesBE [] rest fits

theorem unpackFrom_bytesBE_self {width value : Nat} (fits : value < 2 ^ (8 * width)) :
    unpackFrom (bytesBE width value) 0 width = value := by
  simpa using unpackFrom_bytesBE_append [] fits

theorem toNat_toUInt8 (n : Nat) : n.toUInt8.toNat = n % 256 := rfl

theorem bytesBE_one (value : Nat) : bytesBE 1 value = [(value % 256).toUInt8] := rfl

theorem unpackFrom_cons_succ (byte : UInt8) (rest : List UInt8) (offset width : Nat) :
    unpackFrom (byte :: rest) (offset + 1) width = unpackFrom rest offset width := rfl

/-- A one-byte field is the byte. -/
theorem unpackFrom_cons_one (byte : UInt8) (rest : List UInt8) :
    unpackFrom (byte :: rest) 0 1 = byte.toNat := by
  simp [unpackFrom, bigEndian]

/-- Reading from the end of a packed field reads what follows it. -/
theorem unpackFrom_bytesBE_append_past (rest : List UInt8) {width : Nat} (value w : Nat) :
    unpackFrom (bytesBE width value ++ rest) width w = unpackFrom rest 0 w := by
  simpa using unpackFrom_append_of_le (bytesBE width value) rest w (length_bytesBE width value).le

/-- Skipping past a packed field, the offset counted on from its end. -/
theorem drop_bytesBE_append {width n : Nat} (value : Nat) (rest : List UInt8) (past : width ≤ n) :
    (bytesBE width value ++ rest).drop n = rest.drop (n - width) := by
  simp [List.drop_append_eq_append_drop, List.drop_eq_nil_of_le, past]

theorem packUInt_eq_some {width value : Nat} (fits : value < 2 ^ (8 * width)) :
    packUInt width value = some (bytesBE width value) := if_pos fits

theorem packUInt_isSome (width value : Nat) :
    (packUInt width value).isSome ↔ value < 2 ^ (8 * width) := by
  unfold packUInt
  split <;> simp_all

/-- `struct.pack` of a format of unsigned fields in network order, each field given by its width
and its value: `none` for the `struct.error` of a value that does not fit. -/
def packFields : List (Nat × Nat) → Option (List UInt8)
  | [] => some []
  | (width, value) :: fields => do
    let bytes ← packUInt width value
    let rest ← packFields fields
    pure (bytes ++ rest)

/-- Whether every value of a format fits its field. -/
def FieldsFit (fields : List (Nat × Nat)) : Prop := ∀ field ∈ fields, field.2 < 2 ^ (8 * field.1)

instance : DecidablePred FieldsFit := fun fields => by
  unfold FieldsFit
  infer_instance

theorem packFields_isSome_iff (fields : List (Nat × Nat)) :
    (packFields fields).isSome ↔ FieldsFit fields := by
  induction fields with
  | nil => simp [packFields, FieldsFit]
  | cons field fields ih =>
    obtain ⟨width, value⟩ := field
    rw [FieldsFit, List.forall_mem_cons, ← FieldsFit, ← ih, ← packUInt_isSome]
    simp only [packFields]
    cases packUInt width value <;> cases packFields fields <;> simp

theorem packFields_eq_some {fields : List (Nat × Nat)} (fit : FieldsFit fields) :
    packFields fields = some (fields.flatMap fun field => bytesBE field.1 field.2) := by
  induction fields with
  | nil => rfl
  | cons field fields ih =>
    obtain ⟨width, value⟩ := field
    rw [FieldsFit, List.forall_mem_cons] at fit
    simp [packFields, packUInt_eq_some fit.1, ih fit.2]

theorem length_packFields {fields : List (Nat × Nat)} {bytes : List UInt8}
    (packed : packFields fields = some bytes) : bytes.length = (fields.map Prod.fst).sum := by
  have fit := (packFields_isSome_iff fields).mp (by simp [packed])
  rw [packFields_eq_some fit, Option.some.injEq] at packed
  subst packed
  simp [List.flatMap, Function.comp_def]

/-- Modelled from the spec: `inet_cksum` (misc/ip_helper.py) is absent. The sum of the data read
as 16-bit words in network order, an odd last byte padded with a zero byte. -/
def wordSum : List UInt8 → Nat
  | [] => 0
  | [high] => high.toNat * 256
  | high :: low :: rest => high.toNat * 256 + low.toNat + wordSum rest

/-- The end-around-carry fold of a sum into 16 bits: zero stays zero, any other sum becomes the
value in `1 .. 0xFFFF` congruent to it modulo `0xFFFF`. -/
def foldCarry (sum : Nat) : Nat := if sum = 0 then 0 else (sum - 1) % 0xFFFF + 1

/-- Modelled from the spec: `inet_cksum(data, init)`, the one's complement of the one's
complement sum of `init` and the data's words. -/
def inetCksum (data : List UInt8) (init : Nat) : Nat := 0xFFFF - foldCarry (init + wordSum data)

theorem wordSum_append : ∀ {pre : List UInt8}, pre.length % 2 = 0 → ∀ post,
    wordSum (pre ++ post) = wordSum pre + wordSum post
  | [], _, post => by simp [wordSum]
  | [_], odd, _ => by simp at odd
  | high :: low :: pre, even, post => by
    have rest := @wordSum_append pre (by simp at even; omega) post
    rw [List.cons_append, List.cons_append, wordSum, wordSum, rest]
    omega

theorem wordSum_bytesBE_two {value : Nat} (fits : value < 2 ^ 16) :
    wordSum (bytesBE 2 value) = value := by
  have pair : ∀ bytes : List UInt8, bytes.length = 2 → wordSum bytes = bigEndian bytes
    | [_, _], _ => by simp [wordSum, bigEndian]
  exact (pair _ (length_bytesBE 2 value)).trans (bigEndian_bytesBE_of_lt fits)

theorem inetCksum_lt (data : List UInt8) (init : Nat) : inetCksum data init < 2 ^ 16 := by
  unfold inetCksum
  omega

/-- Writing `inet_cksum` of a frame into its zero 16-bit field at an even offset makes the
checksum of the frame zero, which is what a receiver checks. -/
theorem inetCksum_written {pre : List UInt8} (even : pre.length % 2 = 0) (post : List UInt8)
    (init : Nat) :
    inetCksum (pre ++ bytesBE 2 (inetCksum (pre ++ bytesBE 2 0 ++ post) init) ++ post) init = 0 := by
  have field : ∀ value < 2 ^ 16, wordSum (pre ++ bytesBE 2 value ++ post) =
      wordSum pre + value + wordSum post := by
    intro value fits
    rw [wordSum_append (by simp; omega), wordSum_append even, wordSum_bytesBE_two fits]
  rw [inetCksum, field _ (inetCksum_lt _ _), inetCksum, field 0 (by decide)]
  unfold foldCarry
  split_ifs <;> omega

/-- Modelled from the spec: `MacAddress.__bytes__` (lib/mac_address.py) is absent; the six
bytes of the address in network order. -/
def MacAddress.toBytes (mac : MacAddress) : List UInt8 := bytesBE 6 mac.toNat

/-- Modelled from the spec: `Ip4Address.__bytes__` (lib/ip4_address.py) is absent; the four
bytes of the address in network order. -/
def Ip4Address.toBytes (address : Ip4Address) : List UInt8 := bytesBE 4 address.toNat

@[simp]
theorem length_macAddress_toBytes (mac : MacAddress) : mac.toBytes.length = 6 := length_bytesBE _ _

@[simp]
theorem length_ip4Address_toBytes (address : Ip4Address) : address.toBytes.length = 4 :=
  length_bytesBE _ _

end PyTcp
