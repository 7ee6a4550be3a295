import Mathlib.Data.Nat.Digits
import PyTcp.Ip6Address

namespace PyTcp

namespace Ip6Mask

/-- The code point of the zero of each run of ten Unicode decimal digits (category `Nd`) in the
Unicode 14.0 database of CPython 3.11. Python's `\d` in a `str` pattern matches exactly these
digits, and `int` reads each as its place in its run. -/
def decimalZeros : List Nat :=
  [0x30, 0x660, 0x6f0, 0x7c0, 0x966, 0x9e6, 0xa66, 0xae6, 0xb66, 0xbe6, 0xc66, 0xce6, 0xd66,
   0xde6, 0xe50, 0xed0, 0xf20, 0x1040, 0x1090, 0x17e0, 0x1810, 0x1946, 0x19d0, 0x1a80, 0x1a90,
   0x1b50, 0x1bb0, 0x1c40, 0x1c50, 0xa620, 0xa8d0, 0xa900, 0xa9d0, 0xa9f0, 0xaa50, 0xabf0,
   0xff10, 0x104a0, 0x10d30, 0x11066, 0x110f0, 0x11136, 0x111d0, 0x112f0, 0x11450, 0x114d0,
   0x11650, 0x116c0, 0x11730, 0x118e0, 0x11950, 0x11c50, 0x11d50, 0x11da0, 0x16a60, 0x16ac0,
   0x16b50, 0x1d7ce, 0x1d7d8, 0x1d7e2, 0x1d7ec, 0x1d7f6, 0x1e140, 0x1e2f0, 0x1e950, 0x1fbf0]

/-- `unicodedata.decimal(c)`: the value of a decimal digit, `none` for any other character. -/
def decimalDigit (c : Char) : Option Nat :=
  (decimalZeros.find? fun first => first ≤ c.toNat && c.toNat < first + 10).map (c.toNat - ·)

/-- `int(mask[1:])` once the text has matched the pattern: Python's `int` drops the newline `$`
lets through and reads the digits in base ten, most significant first. -/
def decimalValue (digits : List Char) : Nat :=
  digits.foldl (fun acc digit => 10 * acc + (decimalDigit digit).getD 0) 0

/-- The digits `\d{1,3}` matches in `re.search(r"^\/\d{1,3}$", mask)`: `^` holds the slash to
the start, and `$` matches at the end or before a final newline. -/
def slashDigits : List Char → Option (List Char)
  | '/' :: rest =>
    let digits := if rest.getLast? = some '\n' then rest.dropLast else rest
    if 0 < digits.length ∧ digits.length ≤ 3 ∧ digits.all (fun c => (decimalDigit c).isSome) = true then
      some digits
    else none
  | _ => none

/-- `Ip6Mask(mask)` for a `str`: the `/n` form, and `Ip6MaskFormatError` (`none`) for text the
pattern rejects or a `bit_count` outside `range(129)`. -/
def ofText (mask : String) : Option Ip6Mask :=
  (slashDigits mask.toList).bind fun digits => ofBitCount (decimalValue digits)

theorem decimalValue_append_digit (digits : List Char) (digit : Char) :
    decimalValue (digits ++ [digit]) = 10 * decimalValue digits + (decimalDigit digit).getD 0 := by
  rw [decimalValue, List.foldl_append]
  rfl

/-- The characters `Nat.repr` writes for the digits below ten are the ASCII digits, which read
as their value. -/
theorem decimalDigit_digitChar : ∀ r < 10, decimalDigit (Nat.digitChar r) = some r := by
  decide

/-- `toDigitsCore` with enough fuel puts the decimal digits of `n` in front of what it has. -/
theorem toDigitsCore_ten : ∀ (fuel n : Nat) (tail : List Char), n < fuel →
    ∃ digits, Nat.toDigitsCore 10 fuel n tail = digits ++ tail ∧ digits ≠ [] ∧
      (∀ c ∈ digits, (decimalDigit c).isSome = true) ∧ decimalValue digits = n
  | 0, _, _, empty => absurd empty (Nat.not_lt_zero _)
  | fuel + 1, n, tail, enough => by
    have value := decimalDigit_digitChar (n % 10) (Nat.mod_lt _ (by decide))
    have isDigit : (decimalDigit (Nat.digitChar (n % 10))).isSome = true := by rw [value]; rfl
    rw [Nat.toDigitsCore]
    split_ifs with last
    · refine ⟨[Nat.digitChar (n % 10)], rfl, List.cons_ne_nil _ _,
        List.forall_mem_singleton.mpr isDigit, ?_⟩
      show 10 * 0 + (decimalDigit (Nat.digitChar (n % 10))).getD 0 = n
      rw [value, Option.getD_some]
      omega
    · obtain ⟨front, built, -, digitsFront, valueFront⟩ :=
        toDigitsCore_ten fuel (n / 10) (Nat.digitChar (n % 10) :: tail) (by omega)
      refine ⟨front ++ [Nat.digitChar (n % 10)], by rw [built, List.append_assoc]; rfl, by simp,
        List.forall_mem_append.mpr ⟨digitsFront, List.forall_mem_singleton.mpr isDigit⟩, ?_⟩
      rw [decimalValue_append_digit, valueFront, value, Option.getD_some]
      omega

/-- `Ip6Mask(f"/{n}")` exactly for the counts up to 128, and then it has `n` ones. -/
theorem ofBitCount_eq_some_iff (bitCount : Nat) (mask : Ip6Mask) :
    ofBitCount bitCount = some mask ↔ bitCount ≤ 128 ∧ mask.len = bitCount := by
  constructor
  · intro built
    have valid : bitCount ≤ 128 := by
      by_contra above
      rw [ofBitCount, dif_neg (by omega)] at built
      cases built
    have length := len_ofBitCount valid
    rw [built, Option.map_some', Option.some.injEq] at length
    exact ⟨valid, length⟩
  · rintro ⟨valid, length⟩
    obtain ⟨built, found, counted⟩ := Option.map_eq_some'.mp (len_ofBitCount valid)
    rw [found, eq_of_len_eq (counted.trans length.symm)]

/-- The pattern accepts a slash and one to three decimal digits, and one newline after them. -/
theorem slashDigits_eq_some_iff (text digits : List Char) :
    slashDigits text = some digits ↔
      (text = '/' :: digits ∨ text = '/' :: (digits ++ ['\n'])) ∧ 0 < digits.length ∧
        digits.length ≤ 3 ∧ ∀ c ∈ digits, (decimalDigit c).isSome = true := by
  have newline : (decimalDigit '\n').isSome = false := by decide
  constructor
  · intro found
    unfold slashDigits at found
    split at found
    · rename_i rest
      by_cases ending : rest.getLast? = some '\n' <;>
        simp only [ending, if_true, if_false, List.all_eq_true] at found <;>
        split_ifs at found with valid <;> cases found
      · exact ⟨.inr (by rw [List.dropLast_append_getLast? _ ending]), valid⟩
      · exact ⟨.inl rfl, valid⟩
    · cases found
  · rintro ⟨plain | ended, valid⟩
    · have noNewline : digits.getLast? ≠ some '\n' := fun ending =>
        absurd (valid.2.2 _ (List.mem_of_getLast?_eq_some ending)) (by rw [newline]; decide)
      simp only [plain, slashDigits, if_neg noNewline, List.all_eq_true]
      rw [if_pos valid]
    · simp only [ended, slashDigits, List.getLast?_concat, List.dropLast_concat, if_true,
        List.all_eq_true]
      rw [if_pos valid]

/-- `Ip6Mask(text)` for a `str`, read off the characters of the text. -/
theorem ofText_eq_some_iff (text : String) (mask : Ip6Mask) :
    ofText text = some mask ↔ ∃ digits : List Char,
      (text.toList = '/' :: digits ∨ text.toList = '/' :: (digits ++ ['\n'])) ∧
      0 < digits.length ∧ digits.length ≤ 3 ∧ (∀ c ∈ digits, (decimalDigit c).isSome = true) ∧
      decimalValue digits ≤ 128 ∧ mask.len = decimalValue digits := by
  simp only [ofText, Option.bind_eq_some, slashDigits_eq_some_iff, ofBitCount_eq_some_iff, and_assoc]

/-- `str(len(mask))` is one to three ASCII digits whose value is `len(mask)`. -/
theorem toString_len (mask : Ip6Mask) :
    0 < (toString mask.len).toList.length ∧ (toString mask.len).toList.length ≤ 3 ∧
      (∀ c ∈ (toString mask.len).toList, (decimalDigit c).isSome = true) ∧
      decimalValue (toString mask.len).toList = mask.len := by
  have le := mask.toNat_eq_len.1
  obtain ⟨digits, written, nonempty, allDigits, value⟩ := toDigitsCore_ten (mask.len + 1) mask.len []
    (Nat.lt_succ_self _)
  have printed : (toString mask.len).toList = digits := by
    rw [← List.append_nil digits, ← written]
    rfl
  have short : digits.length ≤ 3 := by
    rw [← printed]
    exact Nat.repr_length mask.len 3 (by decide) (by omega)
  rw [printed]
  exact ⟨List.length_pos.mpr nonempty, short, allDigits, value⟩

/-- `Ip6Mask(f"/{len(mask)}") == mask`. -/
theorem ofText_len (mask : Ip6Mask) : ofText ("/" ++ toString mask.len) = some mask := by
  obtain ⟨nonempty, short, allDigits, value⟩ := toString_len mask
  have matched : slashDigits ('/' :: (toString mask.len).toList) = some (toString mask.len).toList :=
    (slashDigits_eq_some_iff _ _).mpr ⟨.inl rfl, nonempty, short, allDigits⟩
  have text : ("/" ++ toString mask.len).toList = '/' :: (toString mask.len).toList := rfl
  rw [ofText, text, matched, Option.some_bind, value, ofBitCount_eq_some_iff]
  exact ⟨mask.toNat_eq_len.1, rfl⟩

/-- `Ip6Mask(f"/{k}")` is the mask of `k` ones, for every count up to 128. -/
theorem ofText_slash_bitCount {k : Nat} (valid : k ≤ 128) :
    ofText ("/" ++ toString k) = ofBitCount k := by
  obtain ⟨counted, byCount, length⟩ := Option.map_eq_some'.mp (len_ofBitCount valid)
  rw [byCount, ← length]
  exact ofText_len counted

theorem toNat_of_ofInt_eq_some {mask : Int} {parsed : Ip6Mask} (found : ofInt mask = some parsed) :
    (parsed.toNat : Int) = mask := by
  unfold ofInt at found
  split_ifs at found with valid
  cases found
  exact Int.toNat_of_nonneg valid.1

/-- `Ip6Mask(m)` for an integer and for sixteen bytes accepts exactly the values whose 128
binary digits are ones followed by zeros, and `Ip6Mask(f"/{k}")` is
`Ip6Mask(2 ** 128 - 2 ** (128 - k))`. -/
theorem mask_constructors_accept_contiguous :
    (∀ mask : Int, (ofInt mask).isSome ↔ 0 ≤ mask ∧ mask < 2 ^ 128 ∧
      ∃ k ≤ 128, binaryDigits 128 mask.toNat =
        List.replicate k true ++ List.replicate (128 - k) false) ∧
    (∀ mask : List UInt8, mask.length = 16 → ((ofBytes mask).isSome ↔
      ∃ k ≤ 128, binaryDigits 128 (bigEndian mask) =
        List.replicate k true ++ List.replicate (128 - k) false)) ∧
    ∀ k ≤ 128, (ofText ("/" ++ toString k)).isSome ∧
      ofText ("/" ++ toString k) = ofInt (2 ^ 128 - 2 ^ (128 - k) : Nat) := by
  refine ⟨ofInt_isSome_iff, fun mask => ofBytes_isSome_iff, fun k valid => ?_⟩
  rw [ofText_slash_bitCount valid]
  obtain ⟨counted, byCount, length⟩ := Option.map_eq_some'.mp (len_ofBitCount valid)
  have positive := Nat.two_pow_pos (128 - k)
  obtain ⟨parsed, byValue⟩ := Option.isSome_iff_exists.mp
    ((ofInt_isSome_iff ((2 ^ 128 - 2 ^ (128 - k) : Nat) : Int)).mpr
    ⟨Int.ofNat_nonneg _, by omega, k, valid, by rw [Int.toNat_ofNat, binaryDigits_ones_zeros valid]⟩)
  refine ⟨by rw [byCount]; rfl, ?_⟩
  rw [byCount, byValue, Option.some.injEq]
  apply ext
  have value := toNat_of_ofInt_eq_some byValue
  rw [counted.toNat_eq_len.2, length]
  omega

/-- `eui64` builds its host with `Ip6Mask("/64")`, the mask of 64 ones it is modelled with. -/
theorem ofText_slash_sixtyFour : ofText "/64" = ofBitCount 64 := rfl

/-- `Ip6Mask(text)` for a `str` accepts exactly a slash and one to three Unicode decimal digits
(ASCII or of any other script, as `\d` and `int` read them) naming at most 128, also with a
newline after them, which `$` lets through and `int` strips; it gives the mask of that many
ones. And the text `f"/{len(mask)}"` of every mask reads back as that mask. -/
theorem ofText_slash_count :
    (∀ (text : String) (mask : Ip6Mask), ofText text = some mask ↔ ∃ digits : List Char,
      (text.toList = '/' :: digits ∨ text.toList = '/' :: (digits ++ ['\n'])) ∧
      0 < digits.length ∧ digits.length ≤ 3 ∧ (∀ c ∈ digits, (decimalDigit c).isSome = true) ∧
      decimalValue digits ≤ 128 ∧ mask.len = decimalValue digits) ∧
    ∀ mask : Ip6Mask, ofText ("/" ++ toString mask.len) = some mask :=
  ⟨ofText_eq_some_iff, ofText_len⟩

/-- The Arabic-Indic digits of `/٦٤` pass the pattern and read as 64, as `\d` and `int` read
them. -/
example : slashDigits "/\u0666\u0664".toList = some ['\u0666', '\u0664'] ∧
    decimalValue ['\u0666', '\u0664'] = 64 := by
  decide

end Ip6Mask

end PyTcp
